import InboxServer.Api.Alerts

/-!
# Alerts follow the history of their samples

* `captureAlerts_eq` — D1 and PostgreSQL do the same
* `alerts_follow_history` — after any captures, the instance of a policy and its events are those of
  the samples that were counted
-/

namespace InboxServer

open Infra

/-! ## Samples -/

/-- A capture in which a policy has samples. -/
structure AlertSample where
  observedAt : Instant
  breached : Bool
  deriving DecidableEq

def breaches (key : String) (value : ℚ) : Bool :=
  (candidateThreshold key).elim false fun threshold => threshold.breached value

/-- The sample of a policy; a capture whose `sampleCount` is 0 has none. -/
def Capture.sample (capture : Capture) (key : String) : Option AlertSample :=
  (capture.metrics.find? fun metric => metric.key = key).bind fun metric =>
    if metric.sampleCount = 0 then none
    else some ⟨capture.observedAt, breaches key metric.value⟩

/-- The samples of a policy, the last one first. -/
def history (key : String) (captures : List Capture) : List AlertSample :=
  (captures.filterMap fun capture => capture.sample key).reverse

/-- The state after samples, by whether they breached, the last one first. -/
def alertState : List Bool → Option CandidateAlertState
  | true :: true :: _ => some .firing
  | true :: _ => some .pending
  | false :: true :: true :: _ => some .recovered
  | _ => none

def stateOf (samples : List AlertSample) : Option CandidateAlertState :=
  alertState (samples.map AlertSample.breached)

/-- The first breach of the current run of breaches, or of the one that has just ended. -/
def runStart (samples : List AlertSample) : Option Instant :=
  (((samples.dropWhile fun s => !s.breached).takeWhile AlertSample.breached).getLast?).map
    AlertSample.observedAt

/-- The state that the last sample enters. -/
def entered (samples : List AlertSample) : Option CandidateAlertState :=
  if stateOf samples = stateOf samples.tail then none else stateOf samples

/-- The entries into a state, in the order in which they happened. -/
def entries : List AlertSample → List (CandidateAlertState × Instant)
  | [] => []
  | s :: samples => entries samples ++ ((entered (s :: samples)).map fun e => (e, s.observedAt)).toList

example : alertState [true, false] = some .pending ∧ alertState [false, true, true] = some .recovered ∧
    alertState [false, true, false] = none := by decide

/-! ## One decision -/

/-- What a sample makes of the state of the samples before it. -/
theorem evaluateThreshold_state (threshold : CandidateThreshold) (current : ℚ) (before : List Bool) :
    (evaluateThreshold threshold current (alertState before)).state =
      alertState (threshold.breached current :: before) := by
  unfold evaluateThreshold
  cases threshold.breached current with
  | true => rcases before with _ | ⟨_ | _, _ | ⟨_ | _, _ | ⟨_ | _, _⟩⟩⟩ <;> rfl
  | false => rcases before with _ | ⟨_ | _, _ | ⟨_ | _, _ | ⟨_ | _, _⟩⟩⟩ <;> rfl

/-- A transition is an entry into another state. -/
theorem evaluateThreshold_transition (threshold : CandidateThreshold) (current : ℚ)
    (before : List Bool) :
    (evaluateThreshold threshold current (alertState before)).transition =
      if alertState (threshold.breached current :: before) = alertState before then none
      else alertState (threshold.breached current :: before) := by
  unfold evaluateThreshold
  cases threshold.breached current with
  | true => rcases before with _ | ⟨_ | _, _ | ⟨_ | _, _ | ⟨_ | _, _⟩⟩⟩ <;> rfl
  | false => rcases before with _ | ⟨_ | _, _ | ⟨_ | _, _ | ⟨_ | _, _⟩⟩⟩ <;> rfl

/-- What a capture makes of the instance of a policy, and the events that it writes. -/
def recordAlert (capture : Capture) (metric : CandidateMetric) (threshold : CandidateThreshold)
    (row : Option AlertInstanceRow) : Option AlertInstanceRow × List AlertEventRow :=
  if row.map AlertInstanceRow.lastEvaluatedAt = some capture.observedAt then (row, [])
  else
    let decision := evaluateThreshold threshold metric.value (row.map AlertInstanceRow.state)
    match decision.state with
    | none => (none, [])
    | some state =>
      let excluded := alertInstance capture metric threshold state
      (some (row.elim excluded excluded.rewrite),
        (decision.transition.map (alertEvent capture metric threshold)).toList)

/-- The instance of a policy is what its samples say. -/
structure Tracks (samples : List AlertSample) (row : Option AlertInstanceRow) : Prop where
  state : row.map AlertInstanceRow.state = stateOf samples
  first : ∀ r, row = some r → runStart samples = some r.firstObservedAt
  evaluated : ∀ r, row = some r → ∃ s ∈ samples, s.observedAt = r.lastEvaluatedAt

theorem tracks_nil : Tracks [] none where
  state := rfl
  first _ h := by cases h
  evaluated _ h := by cases h

theorem runStart_cons_breached {s : AlertSample} {samples : List AlertSample}
    (h : s.breached = true) :
    runStart (s :: samples) =
      if samples.head?.any AlertSample.breached then runStart samples else some s.observedAt := by
  rcases samples with _ | ⟨s', samples⟩
  · simp [runStart, h]
  · cases h' : s'.breached <;> simp [runStart, h, h', List.getLast?_cons]

theorem runStart_cons_ended {s : AlertSample} {samples : List AlertSample}
    (h : s.breached = false) : runStart (s :: samples) = runStart samples := by
  simp [runStart, h]

/-- Samples before a breach say whether their run goes on. -/
theorem head_breached {samples : List AlertSample} :
    samples.head?.any AlertSample.breached = true ↔
      stateOf samples = some .pending ∨ stateOf samples = some .firing := by
  rcases samples with _ | ⟨⟨t, _ | _⟩, _ | ⟨⟨t', _ | _⟩, _ | ⟨⟨t'', _ | _⟩, samples⟩⟩⟩ <;>
    simp [stateOf, alertState]

/-- A breach after a state that is not one of a run of breaches begins a run. -/
theorem state_of_breach {before : List Bool}
    (h : alertState before = none ∨ alertState before = some .recovered) :
    alertState (true :: before) = some .pending := by
  rcases before with _ | ⟨_ | _, _ | ⟨_ | _, _ | ⟨_ | _, _⟩⟩⟩ <;> simp_all [alertState]

/-- A sample that does not breach leaves a state only behind an alert that fired. -/
theorem state_of_calm {before : List Bool} {state : CandidateAlertState}
    (h : alertState (false :: before) = some state) :
    state = .recovered ∧ alertState before = some .firing := by
  rcases before with _ | ⟨_ | _, _ | ⟨_ | _, _⟩⟩ <;> simp_all [alertState]

section Record

variable {capture : Capture} {metric : CandidateMetric} {threshold : CandidateThreshold}
  {samples : List AlertSample} {row : Option AlertInstanceRow}

/-- The sample of a capture. -/
def alertSample (capture : Capture) (metric : CandidateMetric) (threshold : CandidateThreshold) :
    AlertSample := ⟨capture.observedAt, threshold.breached metric.value⟩

/-- An alert is first observed where the run of its breaches begins. -/
theorem first_of_record (h : Tracks samples row) {state : CandidateAlertState}
    (hstate : stateOf (alertSample capture metric threshold :: samples) = some state) :
    runStart (alertSample capture metric threshold :: samples) =
      some ((row.elim (alertInstance capture metric threshold state)
        (alertInstance capture metric threshold state).rewrite).firstObservedAt) := by
  have hrow := h.state
  cases hb : threshold.breached metric.value with
  | true =>
    have hs : (alertSample capture metric threshold).breached = true := hb
    rw [runStart_cons_breached hs]
    by_cases hhead : samples.head?.any AlertSample.breached = true
    · -- the run goes on, and its first breach stays
      rw [if_pos hhead]
      rcases head_breached.mp hhead with hrun | hrun
      all_goals
        rw [hrun] at hrow
        obtain ⟨r, rfl, hr⟩ := Option.map_eq_some_iff.mp hrow
        rw [h.first r rfl]
        simp [AlertInstanceRow.rewrite, hr]
    · rw [if_neg hhead]
      rw [head_breached, not_or] at hhead
      have hpending : state = .pending := by
        have hbreach := state_of_breach (show alertState (samples.map AlertSample.breached) = none ∨
            alertState (samples.map AlertSample.breached) = some .recovered by
          cases hold : stateOf samples with
          | none => exact Or.inl hold
          | some old => cases old <;> simp_all [stateOf])
        rw [stateOf, List.map_cons, hs, hbreach] at hstate
        exact (Option.some.inj hstate).symm
      -- the run begins with this sample, so the row is new or starts over
      cases row with
      | none => rfl
      | some r =>
        have hrecovered : r.state = .recovered := by
          rw [← hrow] at hhead
          cases hr : r.state <;> simp_all
        simp [AlertInstanceRow.rewrite, hrecovered, hpending, alertInstance, alertSample]
  | false =>
    -- no breach: only a firing alert has a state, and it keeps where it began
    have hs : (alertSample capture metric threshold).breached = false := hb
    rw [runStart_cons_ended hs]
    rw [stateOf, List.map_cons, hs] at hstate
    obtain ⟨rfl, hfiring⟩ := state_of_calm hstate
    rw [stateOf, hfiring] at hrow
    obtain ⟨r, rfl, hr⟩ := Option.map_eq_some_iff.mp hrow
    rw [h.first r rfl]
    simp [AlertInstanceRow.rewrite, alertInstance]

/-- **A capture keeps the instance to its samples, and writes an event where it enters a state.** -/
theorem tracks_record (h : Tracks samples row)
    (hlater : ∀ s ∈ samples, s.observedAt < capture.observedAt) :
    Tracks (alertSample capture metric threshold :: samples)
        (recordAlert capture metric threshold row).1 ∧
      (recordAlert capture metric threshold row).2.map (fun e => (e.state, e.occurredAt)) =
        ((entered (alertSample capture metric threshold :: samples)).map fun e =>
          (e, capture.observedAt)).toList := by
  have hnew : row.map AlertInstanceRow.lastEvaluatedAt ≠ some capture.observedAt := by
    intro hsame
    obtain ⟨r, hr, hlast⟩ := Option.map_eq_some_iff.mp hsame
    obtain ⟨s, hs, hat⟩ := h.evaluated r hr
    have hlt := hlater s hs
    rw [hat, hlast] at hlt
    exact lt_irrefl _ hlt
  have hdecision := evaluateThreshold_state threshold metric.value
    (samples.map AlertSample.breached)
  have htransition := evaluateThreshold_transition threshold metric.value
    (samples.map AlertSample.breached)
  have hcons : alertState (threshold.breached metric.value :: samples.map AlertSample.breached) =
      stateOf (alertSample capture metric threshold :: samples) := rfl
  have hold : alertState (samples.map AlertSample.breached) = stateOf samples := rfl
  rw [hcons, hold] at hdecision htransition
  unfold recordAlert entered
  rw [if_neg hnew, h.state, List.tail_cons]
  dsimp only
  rw [hdecision, htransition]
  cases hstate : stateOf (alertSample capture metric threshold :: samples) with
  | none =>
    refine ⟨⟨hstate.symm, (fun r hr => by cases hr), fun r hr => by cases hr⟩, ?_⟩
    cases stateOf samples <;> rfl
  | some state =>
    refine ⟨⟨?_, ?_, ?_⟩, ?_⟩
    · rw [hstate]
      cases row <;> rfl
    · intro r hr
      rw [← Option.some.inj hr]
      exact first_of_record h hstate
    · intro r hr
      refine ⟨_, List.mem_cons_self, ?_⟩
      rw [← Option.some.inj hr]
      cases row <;> rfl
    · by_cases hsame : some state = stateOf samples
      · simp [hsame]
      · simp [hsame, alertEvent]

end Record

/-! ## Event keys -/

/-- A policy that can have alerts. -/
def IsCandidate (key : String) : Prop := (candidateThreshold key).isSome = true

/-- The key of a candidate has no colon. -/
theorem colon_not_mem_candidate {key : String} (h : IsCandidate key) : ':' ∉ key.toList := by
  have hkeys : ∀ k ∈ ["queue.executable", "queue.oldest_executable_age_seconds",
      "worker.heartbeat_age_seconds", "dependency.browser.ready", "dependency.mihomo.ready",
      "dependency.warp.ready"], ':' ∉ k.toList := by decide
  refine hkeys key ?_
  unfold IsCandidate candidateThreshold at h
  obtain ⟨e, he, hkey⟩ := List.lookup_isSome_iff.mp h
  rw [eq_of_beq hkey]
  exact List.mem_map_of_mem he

theorem colon_not_mem_state (state : CandidateAlertState) : ':' ∉ state.name.toList := by
  cases state <;> decide

/-- The parts of an event key can be read off it. -/
theorem alertEventKey_inj {key key' : String} (hkey : IsCandidate key) (hkey' : IsCandidate key')
    {state state' : CandidateAlertState} {observedAt observedAt' : Instant}
    (h : alertEventKey key state observedAt = alertEventKey key' state' observedAt') :
    key = key' ∧ state = state' ∧ observedAt = observedAt' := by
  have hlists := congrArg String.toList h
  simp only [alertEventKey, String.toList_append, List.append_assoc,
    show ":".toList = [':'] from rfl, List.singleton_append] at hlists
  obtain ⟨hpolicy, hrest⟩ := append_cons_inj (colon_not_mem_candidate hkey)
    (colon_not_mem_candidate hkey') hlists
  obtain ⟨hname, hdate⟩ := append_cons_inj (colon_not_mem_state state) (colon_not_mem_state state')
    hrest
  refine ⟨String.toList_inj.mp hpolicy, ?_, toISOString_injective (String.toList_inj.mp hdate)⟩
  cases state <;> cases state' <;> first | rfl | exact absurd hname (by decide)

/-- No event of the policy is there for the instant. -/
def Unrecorded (key : String) (observedAt : Instant) (db : AlertDb) : Prop :=
  ∀ event ∈ db.events, ∀ state, event.eventKey ≠ alertEventKey key state observedAt

/-! ## What one metric changes -/

section Metric

variable {previousByPolicy : String → Option AlertInstanceRow} {capture : Capture} {db : AlertDb}
  {metric : CandidateMetric}

/-- An alert is written under its key, and under no other. -/
theorem lookup_upsertInstance (row : AlertInstanceRow) (key : String) :
    (db.upsertInstance row).instances.lookup AlertInstanceRow.policyKey key =
      if row.policyKey = key then
        some ((db.instances.lookup AlertInstanceRow.policyKey key).elim row row.rewrite)
      else db.instances.lookup AlertInstanceRow.policyKey key := by
  split
  · next hkey =>
    subst hkey
    exact Table.lookup_upsert (f := row.rewrite) AlertInstanceRow.conflict_iff fun _ => rfl
  · next hkey =>
    exact Table.lookup_upsert_of_ne (f := row.rewrite) AlertInstanceRow.conflict_iff (fun _ => rfl)
      hkey

/-- An alert is deleted under its key, and under no other. -/
theorem lookup_deleteInstance (policyKey key : String) :
    (db.deleteInstance policyKey).instances.lookup AlertInstanceRow.policyKey key =
      if policyKey = key then none else db.instances.lookup AlertInstanceRow.policyKey key := by
  unfold AlertDb.deleteInstance
  rw [Table.lookup_delete AlertInstanceRow.isKey_policyKey]
  cases hrow : db.instances.lookup AlertInstanceRow.policyKey key with
  | none => simp
  | some row =>
    have hkey := Table.lookup_key hrow
    by_cases hpolicy : policyKey = key
    · simp [Option.filter, hkey, hpolicy]
    · simp [Option.filter, hkey, hpolicy, Ne.symm hpolicy]

theorem rows_insertEvent (db : AlertDb) (event : AlertEventRow) :
    (db.insertEvent event).events.rows = db.events.rows ∨
      (db.insertEvent event).events.rows = db.events.rows ++ [event] := by
  unfold AlertDb.insertEvent
  cases hinsert : db.events.insert? event with
  | none => exact Or.inl rfl
  | some events => exact Or.inr (Table.insert?_eq_some hinsert).1

theorem rows_insertEvent_new (db : AlertDb) {event : AlertEventRow}
    (h : ∀ e ∈ db.events, e.eventKey ≠ event.eventKey) :
    (db.insertEvent event).events.rows = db.events.rows ++ [event] := by
  obtain ⟨events, hinsert⟩ := Table.insert?_isSome (t := db.events) (r := event)
    fun e he => by simpa [Constrained.conflict] using h e he
  rw [AlertDb.insertEvent, hinsert]
  exact (Table.insert?_eq_some hinsert).1

/-- The metric of another policy does not touch the instance of this one. -/
theorem captureAlert_lookup_of_ne {key : String} (hne : metric.key ≠ key) :
    (Postgres.captureAlert previousByPolicy capture db metric).instances.lookup
        AlertInstanceRow.policyKey key =
      db.instances.lookup AlertInstanceRow.policyKey key := by
  have hdelete : (db.deleteInstance metric.key).instances.lookup AlertInstanceRow.policyKey key =
      db.instances.lookup AlertInstanceRow.policyKey key := by
    rw [lookup_deleteInstance, if_neg hne]
  have hupsert : ∀ row : AlertInstanceRow, row.policyKey = metric.key →
      (db.upsertInstance row).instances.lookup AlertInstanceRow.policyKey key =
        db.instances.lookup AlertInstanceRow.policyKey key := fun row hrow => by
    rw [lookup_upsertInstance, if_neg (hrow ▸ hne)]
  unfold Postgres.captureAlert
  split
  · rfl
  · dsimp only
    split
    · rfl
    · split
      · split
        · exact hdelete
        · rfl
      · split
        · exact hupsert _ rfl
        · exact hupsert _ rfl

/-- The events that a metric adds are those of its policy, at the time of the capture. -/
theorem captureAlert_rows (previousByPolicy : String → Option AlertInstanceRow) (capture : Capture)
    (db : AlertDb) (metric : CandidateMetric) :
    ∃ extra, (Postgres.captureAlert previousByPolicy capture db metric).events.rows =
        db.events.rows ++ extra ∧
      ∀ e ∈ extra, IsCandidate metric.key ∧ e.policyKey = metric.key ∧
        ∃ state, e.eventKey = alertEventKey metric.key state capture.observedAt := by
  unfold Postgres.captureAlert
  split
  · exact ⟨[], by simp, by simp⟩
  · next threshold hthreshold =>
    have hcandidate : IsCandidate metric.key := Option.isSome_of_eq_some hthreshold
    dsimp only
    split
    · exact ⟨[], by simp, by simp⟩
    · split
      · split <;> exact ⟨[], by simp [AlertDb.deleteInstance], by simp⟩
      · next state hstate =>
        split
        · exact ⟨[], by simp [AlertDb.upsertInstance], by simp⟩
        · next transition htransition =>
          rcases rows_insertEvent
            (db.upsertInstance (alertInstance capture metric threshold state))
            (alertEvent capture metric threshold transition) with hrows | hrows
          · exact ⟨[], by rw [hrows]; simp [AlertDb.upsertInstance], by simp⟩
          · refine ⟨[alertEvent capture metric threshold transition], hrows, fun e he => ?_⟩
            rw [List.mem_singleton.mp he]
            exact ⟨hcandidate, rfl, transition, rfl⟩

/-- What a metric does to the instance of its own policy. -/
theorem captureAlert_lookup (capture : Capture) {threshold : CandidateThreshold}
    (hthreshold : candidateThreshold metric.key = some threshold)
    (hprevious : previousByPolicy metric.key =
      db.instances.lookup AlertInstanceRow.policyKey metric.key) :
    (Postgres.captureAlert previousByPolicy capture db metric).instances.lookup
        AlertInstanceRow.policyKey metric.key =
      (recordAlert capture metric threshold
        (db.instances.lookup AlertInstanceRow.policyKey metric.key)).1 := by
  unfold Postgres.captureAlert recordAlert
  simp only [hthreshold, hprevious]
  split
  · rfl
  · generalize evaluateThreshold threshold metric.value _ = decision
    have hlookup : ∀ state, (db.upsertInstance (alertInstance capture metric threshold
        state)).instances.lookup AlertInstanceRow.policyKey metric.key = _ := fun state =>
      (lookup_upsertInstance _ _).trans (if_pos rfl)
    rcases decision with ⟨_ | state, _ | transition⟩
    · dsimp only
      split
      · rw [lookup_deleteInstance, if_pos rfl]
      · next hnone => simpa using hnone
    · dsimp only
      split
      · rw [lookup_deleteInstance, if_pos rfl]
      · next hnone => simpa using hnone
    · exact hlookup state
    · exact hlookup state

/-- The events that it writes, where none is there for the time of the capture. -/
theorem captureAlert_events {threshold : CandidateThreshold}
    (hthreshold : candidateThreshold metric.key = some threshold)
    (hprevious : previousByPolicy metric.key =
      db.instances.lookup AlertInstanceRow.policyKey metric.key)
    (hnew : Unrecorded metric.key capture.observedAt db) :
    (Postgres.captureAlert previousByPolicy capture db metric).events.rows =
      db.events.rows ++ (recordAlert capture metric threshold
        (db.instances.lookup AlertInstanceRow.policyKey metric.key)).2 := by
  unfold Postgres.captureAlert recordAlert
  simp only [hthreshold, hprevious]
  split
  · simp
  · generalize evaluateThreshold threshold metric.value _ = decision
    rcases decision with ⟨_ | state, _ | transition⟩
    · dsimp only
      split <;> simp [AlertDb.deleteInstance]
    · dsimp only
      split <;> simp [AlertDb.deleteInstance]
    · simp [AlertDb.upsertInstance]
    · exact rows_insertEvent_new (db.upsertInstance (alertInstance capture metric threshold state))
        fun e he => hnew e he transition

end Metric

/-! ## What a capture changes -/

/-- The events of a policy. -/
def eventsOf (key : String) (db : AlertDb) : List AlertEventRow :=
  db.events.rows.filter fun event => event.policyKey = key

section Capture

variable {previousByPolicy : String → Option AlertInstanceRow} {capture : Capture} {db : AlertDb}
  {metrics : List CandidateMetric} {key : String}

theorem eventsOf_append {db' : AlertDb} {extra : List AlertEventRow}
    (hrows : db'.events.rows = db.events.rows ++ extra) (key : String) :
    eventsOf key db' = eventsOf key db ++ extra.filter fun event => event.policyKey = key := by
  rw [eventsOf, hrows, List.filter_append]
  rfl

/-- The metrics of other policies do not touch the instance and the events of this one. -/
theorem foldl_others (previousByPolicy : String → Option AlertInstanceRow) (capture : Capture)
    (db : AlertDb) (hne : ∀ metric ∈ metrics, metric.key ≠ key) :
    let after := metrics.foldl (Postgres.captureAlert previousByPolicy capture) db
    after.instances.lookup AlertInstanceRow.policyKey key =
        db.instances.lookup AlertInstanceRow.policyKey key ∧
      eventsOf key after = eventsOf key db := by
  induction metrics generalizing db with
  | nil => exact ⟨rfl, rfl⟩
  | cons metric metrics ih =>
    have hmetric := hne metric List.mem_cons_self
    obtain ⟨hlookup, hevents⟩ := ih (Postgres.captureAlert previousByPolicy capture db metric)
      fun m hm => hne m (List.mem_cons_of_mem _ hm)
    obtain ⟨extra, hrows, hextra⟩ := captureAlert_rows previousByPolicy capture db metric
    refine ⟨hlookup.trans (captureAlert_lookup_of_ne hmetric), hevents.trans ?_⟩
    rw [eventsOf_append hrows, List.filter_eq_nil_iff.mpr, List.append_nil]
    intro e he
    rw [(hextra e he).2.1]
    simpa using hmetric

/-- A capture leaves the events of a policy at another time, and those of other policies, unwritten. -/
theorem foldl_unrecorded {observedAt : Instant} (db : AlertDb) (hkey : IsCandidate key)
    (hnew : Unrecorded key observedAt db)
    (hother : capture.observedAt ≠ observedAt ∨ ∀ metric ∈ metrics, metric.key ≠ key) :
    Unrecorded key observedAt
      (metrics.foldl (Postgres.captureAlert previousByPolicy capture) db) := by
  induction metrics generalizing db with
  | nil => exact hnew
  | cons metric metrics ih =>
    refine ih _ (fun e he state hsame => ?_) (hother.imp_right fun h m hm =>
      h m (List.mem_cons_of_mem _ hm))
    obtain ⟨extra, hrows, hextra⟩ := captureAlert_rows previousByPolicy capture db metric
    rw [← Table.mem_rows, hrows, List.mem_append] at he
    rcases he with he | he
    · exact hnew e he state hsame
    · obtain ⟨hmetric, -, state', hkey'⟩ := hextra e he
      obtain ⟨hpolicy, -, hat⟩ := alertEventKey_inj hmetric hkey (hkey'.symm.trans hsame)
      rcases hother with hat' | hne
      · exact hat' hat
      · exact hne metric List.mem_cons_self hpolicy

/-- The alert of a candidate is the one under its key. -/
theorem existingAlerts_eq {metric : CandidateMetric}
    (h : metric ∈ Postgres.alertCandidates capture) :
    Postgres.existingAlerts capture db metric.key =
      db.instances.lookup AlertInstanceRow.policyKey metric.key := by
  unfold Postgres.existingAlerts Table.lookup
  rw [List.find?_filter]
  refine List.find?_congr fun row _ => ?_
  by_cases hrow : row.policyKey = metric.key
  · have hmem : ∃ m ∈ Postgres.alertCandidates capture, m.key = metric.key := ⟨metric, h, rfl⟩
    simpa [hrow] using hmem
  · simp [hrow]

/-- **D1 and PostgreSQL do the same.** -/
theorem captureAlerts_eq (db : AlertDb) (capture : Capture) :
    D1.persistCandidateAlerts db capture = Postgres.captureAlerts db capture := by
  unfold D1.persistCandidateAlerts Postgres.captureAlerts
  rw [List.foldl_flatMap]
  show _ = List.foldl _ db (List.filter _ _)
  rw [List.foldl_filter]
  refine List.foldl_ext _ _ _ fun acc metric hmetric => ?_
  unfold D1.alertStatements
  cases hthreshold : candidateThreshold metric.key with
  | none => simp
  | some threshold =>
    by_cases hcount : metric.sampleCount = 0
    · simp [hcount]
    · have hmem : metric ∈ Postgres.alertCandidates capture :=
        List.mem_filter.mpr ⟨hmetric, by simp [hthreshold]; omega⟩
      rw [if_pos (by simp; omega), Postgres.captureAlert]
      simp only [hthreshold, hcount, if_false, existingAlerts_eq hmem]
      split
      · rfl
      · generalize evaluateThreshold threshold metric.value _ = decision
        rcases decision with ⟨_ | state, _ | transition⟩
        · dsimp only
          split <;> rfl
        · dsimp only
          split <;> rfl
        · rfl
        · rfl

/-- The candidates of a capture have keys of their own. -/
theorem nodup_candidates (capture : Capture) :
    ((Postgres.alertCandidates capture).map CandidateMetric.key).Nodup :=
  capture.nodup.sublist (List.filter_sublist.map _)

/-- A policy without a sample is left as it is. -/
theorem captureAlerts_idle (db : AlertDb)
    (h : ∀ metric ∈ Postgres.alertCandidates capture, metric.key ≠ key) :
    (Postgres.captureAlerts db capture).instances.lookup AlertInstanceRow.policyKey key =
        db.instances.lookup AlertInstanceRow.policyKey key ∧
      eventsOf key (Postgres.captureAlerts db capture) = eventsOf key db :=
  foldl_others _ capture db h

/-- The candidates before and after one are of other policies. -/
theorem split_candidates {metric : CandidateMetric}
    (hmetric : metric ∈ Postgres.alertCandidates capture) :
    ∃ before rest, Postgres.alertCandidates capture = before ++ metric :: rest ∧
      (∀ m ∈ before, m.key ≠ metric.key) ∧ ∀ m ∈ rest, m.key ≠ metric.key := by
  obtain ⟨before, rest, hsplit⟩ := List.append_of_mem hmetric
  have hnodup := nodup_candidates capture
  rw [hsplit, List.map_append, List.map_cons, List.nodup_append] at hnodup
  obtain ⟨-, hrest, hapart⟩ := hnodup
  exact ⟨before, rest, hsplit,
    fun m hm => hapart m.key (List.mem_map_of_mem hm) metric.key List.mem_cons_self,
    fun m hm hsame => (List.nodup_cons.mp hrest).1 (hsame ▸ List.mem_map_of_mem hm)⟩

/-- What a capture does to the instance of a policy that it has a sample of. -/
theorem captureAlerts_lookup (db : AlertDb) {metric : CandidateMetric} {threshold : CandidateThreshold}
    (hmetric : metric ∈ Postgres.alertCandidates capture)
    (hthreshold : candidateThreshold metric.key = some threshold) :
    (Postgres.captureAlerts db capture).instances.lookup AlertInstanceRow.policyKey metric.key =
      (recordAlert capture metric threshold
        (db.instances.lookup AlertInstanceRow.policyKey metric.key)).1 := by
  obtain ⟨before, rest, hsplit, hbefore, hrest⟩ := split_candidates hmetric
  have hlookup := (foldl_others (Postgres.existingAlerts capture db) capture db hbefore).1
  have hown := captureAlert_lookup capture hthreshold
    ((existingAlerts_eq hmetric).trans hlookup.symm)
  rw [hlookup] at hown
  unfold Postgres.captureAlerts
  rw [hsplit, List.foldl_append, List.foldl_cons]
  exact (foldl_others _ capture _ hrest).1.trans hown

/-- The events that it writes. -/
theorem captureAlerts_events {metric : CandidateMetric} {threshold : CandidateThreshold}
    (hmetric : metric ∈ Postgres.alertCandidates capture)
    (hthreshold : candidateThreshold metric.key = some threshold)
    (hnew : Unrecorded metric.key capture.observedAt db) :
    eventsOf metric.key (Postgres.captureAlerts db capture) =
      eventsOf metric.key db ++ (recordAlert capture metric threshold
        (db.instances.lookup AlertInstanceRow.policyKey metric.key)).2.filter
          fun event => event.policyKey = metric.key := by
  obtain ⟨before, rest, hsplit, hbefore, hrest⟩ := split_candidates hmetric
  obtain ⟨hlookup, hevents⟩ :=
    foldl_others (Postgres.existingAlerts capture db) capture db hbefore
  have hrows := captureAlert_events hthreshold ((existingAlerts_eq hmetric).trans hlookup.symm)
    (foldl_unrecorded db (Option.isSome_of_eq_some hthreshold) hnew (Or.inr hbefore))
  rw [hlookup] at hrows
  unfold Postgres.captureAlerts
  rw [hsplit, List.foldl_append, List.foldl_cons]
  exact (foldl_others _ capture _ hrest).2.trans ((eventsOf_append hrows metric.key).trans
    (by rw [hevents]))

/-- Where a capture is repeated, it finds its instance evaluated, or none and nothing to write. -/
theorem recorded_settled (capture : Capture) (metric : CandidateMetric)
    (threshold : CandidateThreshold) (row : Option AlertInstanceRow) :
    (recordAlert capture metric threshold row).1.map AlertInstanceRow.lastEvaluatedAt =
        some capture.observedAt ∨
      ((recordAlert capture metric threshold row).1 = none ∧
        threshold.breached metric.value = false) := by
  unfold recordAlert
  split
  · next hsame => exact Or.inl hsame
  · cases hbreached : threshold.breached metric.value with
    | false =>
      by_cases hfiring : row.map AlertInstanceRow.state = some .firing
      · refine Or.inl ?_
        simp only [evaluateThreshold, hbreached, hfiring]
        cases row <;> rfl
      · refine Or.inr ⟨?_, rfl⟩
        simp [evaluateThreshold, hbreached, hfiring]
    | true =>
      refine Or.inl ?_
      simp only [evaluateThreshold, hbreached, if_true]
      rcases row with _ | ⟨_, _, _, _ | _ | _⟩ <;> rfl

/-- **A repeated capture changes nothing.** -/
theorem captureAlerts_repeated (db : AlertDb) (capture : Capture) :
    Postgres.captureAlerts (Postgres.captureAlerts db capture) capture =
      Postgres.captureAlerts db capture := by
  have hsettled : ∀ acc, ∀ metric ∈ Postgres.alertCandidates capture,
      Postgres.captureAlert (Postgres.existingAlerts capture (Postgres.captureAlerts db capture))
        capture acc metric = acc := by
    intro acc metric hmetric
    have hcounted := (List.mem_filter.mp hmetric).2
    rw [Bool.and_eq_true] at hcounted
    obtain ⟨threshold, hthreshold⟩ := Option.isSome_iff_exists.mp hcounted.2
    have hrow : Postgres.existingAlerts capture (Postgres.captureAlerts db capture) metric.key = _ :=
      (existingAlerts_eq hmetric).trans (captureAlerts_lookup db hmetric hthreshold)
    unfold Postgres.captureAlert
    simp only [hthreshold, hrow]
    rcases recorded_settled capture metric threshold
      (db.instances.lookup AlertInstanceRow.policyKey metric.key) with hevaluated | ⟨hnone, hcalm⟩
    · rw [if_pos hevaluated]
    · rw [hnone]
      simp [evaluateThreshold, hcalm]
  unfold Postgres.captureAlerts at hsettled ⊢
  rw [List.foldl_ext _ (fun acc _ => acc) _ hsettled]
  exact List.foldl_fixed _

end Capture

/-! ## Histories -/

section History

variable {capture : Capture} {key : String}

/-- A policy that a capture does not evaluate. -/
theorem not_evaluated (capture : Capture) (h : capture.sample key = none ∨ ¬ IsCandidate key) :
    ∀ metric ∈ Postgres.alertCandidates capture, metric.key ≠ key := by
  rintro metric hmetric rfl
  obtain ⟨hmem, hcounted⟩ := List.mem_filter.mp hmetric
  rw [Bool.and_eq_true, decide_eq_true_eq] at hcounted
  rcases h with hnone | hnot
  · have hfind : capture.metrics.find? (fun m => m.key = metric.key) = some metric := by
      have hsome : (capture.metrics.find? fun m => m.key = metric.key).isSome := by
        rw [List.find?_isSome]
        exact ⟨metric, hmem, by simp⟩
      obtain ⟨m, hm⟩ := Option.isSome_iff_exists.mp hsome
      have hkey : m.key = metric.key := by simpa using List.find?_some hm
      rw [hm, List.inj_on_of_nodup_map capture.nodup (List.mem_of_find?_eq_some hm) hmem hkey]
    rw [Capture.sample, hfind, Option.bind_some, if_neg (by omega)] at hnone
    cases hnone
  · exact hnot hcounted.2

/-- The metric behind a sample. -/
theorem metric_of_sample {s : AlertSample} {threshold : CandidateThreshold}
    (hsample : capture.sample key = some s) (hthreshold : candidateThreshold key = some threshold) :
    ∃ metric ∈ Postgres.alertCandidates capture, metric.key = key ∧
      s = alertSample capture metric threshold := by
  obtain ⟨metric, hfind, hs⟩ := Option.bind_eq_some_iff.mp hsample
  have hkey : metric.key = key := by simpa using List.find?_some hfind
  split at hs
  · cases hs
  · next hcount =>
    refine ⟨metric, List.mem_filter.mpr ⟨List.mem_of_find?_eq_some hfind, ?_⟩, hkey, ?_⟩
    · simp [hkey, hthreshold]
      omega
    · rw [← Option.some.inj hs]
      simp [alertSample, breaches, hthreshold]

theorem sample_observedAt {s : AlertSample} (h : capture.sample key = some s) :
    s.observedAt = capture.observedAt := by
  obtain ⟨metric, -, hs⟩ := Option.bind_eq_some_iff.mp h
  split at hs
  · cases hs
  · rw [← Option.some.inj hs]

theorem history_snoc (key : String) (captures : List Capture) (capture : Capture) :
    history key (captures ++ [capture]) =
      (capture.sample key).toList ++ history key captures := by
  unfold history
  rw [List.filterMap_append, List.reverse_append]
  cases h : capture.sample key <;> simp [h]

/-- The events of a policy, by their state and time. -/
def eventTimes (key : String) (db : AlertDb) : List (CandidateAlertState × Instant) :=
  (eventsOf key db).map fun event => (event.state, event.occurredAt)

/-- The alerts of a policy after captures are those of its samples. -/
structure FollowsHistory (key : String) (db : AlertDb) (captures : List Capture) (after : AlertDb) :
    Prop where
  tracks : Tracks (history key captures) (after.instances.lookup AlertInstanceRow.policyKey key)
  events : eventTimes key after = eventTimes key db ++ entries (history key captures)

/-- Events are recorded under the key of their metric. -/
theorem recorded_policyKey {metric : CandidateMetric} {threshold : CandidateThreshold}
    {row : Option AlertInstanceRow} :
    ∀ e ∈ (recordAlert capture metric threshold row).2, e.policyKey = metric.key := by
  intro e he
  unfold recordAlert at he
  split at he
  · cases he
  · dsimp only at he
    split at he
    · cases he
    · obtain ⟨transition, -, rfl⟩ : ∃ t, _ ∧ alertEvent capture metric threshold t = e := by
        simpa using he
      rfl

/-- **One capture.** -/
theorem FollowsHistory.snoc {db after : AlertDb} {captures : List Capture}
    (h : FollowsHistory key db captures after) (hcandidate : IsCandidate key)
    (hlater : ∀ c ∈ captures, c.observedAt < capture.observedAt)
    (hnew : Unrecorded key capture.observedAt after) :
    FollowsHistory key db (captures ++ [capture]) (Postgres.captureAlerts after capture) := by
  cases hsample : capture.sample key with
  | none =>
    obtain ⟨hlookup, hevents⟩ := captureAlerts_idle after (not_evaluated _ (Or.inl hsample))
    have hhistory : history key (captures ++ [capture]) = history key captures := by
      rw [history_snoc, hsample]
      rfl
    exact ⟨by rw [hhistory, hlookup]; exact h.tracks, by
      rw [hhistory, eventTimes, hevents]; exact h.events⟩
  | some s =>
    obtain ⟨threshold, hthreshold⟩ := Option.isSome_iff_exists.mp hcandidate
    obtain ⟨metric, hmetric, rfl, rfl⟩ := metric_of_sample hsample hthreshold
    have hlookup := captureAlerts_lookup after hmetric hthreshold
    have hevents := captureAlerts_events hmetric hthreshold hnew
    have hhistory : history metric.key (captures ++ [capture]) =
        alertSample capture metric threshold :: history metric.key captures := by
      rw [history_snoc, hsample]
      rfl
    have hbefore : ∀ s ∈ history metric.key captures, s.observedAt < capture.observedAt := by
      intro s hs
      obtain ⟨c, hc, hcs⟩ := List.mem_filterMap.mp (List.mem_reverse.mp hs)
      rw [sample_observedAt hcs]
      exact hlater c hc
    obtain ⟨htracks, hentry⟩ := @tracks_record capture metric threshold _ _ h.tracks hbefore
    rw [List.filter_eq_self.mpr fun e he => by simpa using recorded_policyKey e he] at hevents
    refine ⟨by rw [hhistory, hlookup]; exact htracks, ?_⟩
    rw [hhistory, eventTimes, hevents, List.map_append, hentry, entries, ← List.append_assoc]
    exact congrArg (· ++ _) h.events

end History

/-- A policy without a threshold never breaches. -/
theorem calm_of_not_candidate {key : String} (h : ¬ IsCandidate key) (captures : List Capture) :
    stateOf (history key captures) = none ∧ entries (history key captures) = [] := by
  have hcalm : ∀ s ∈ history key captures, s.breached = false := by
    intro s hs
    obtain ⟨c, -, hcs⟩ := List.mem_filterMap.mp (List.mem_reverse.mp hs)
    obtain ⟨metric, -, hmetric⟩ := Option.bind_eq_some_iff.mp hcs
    have hnone : candidateThreshold key = none := by simpa [IsCandidate] using h
    split at hmetric
    · cases hmetric
    · rw [← Option.some.inj hmetric]
      simp [breaches, hnone]
  generalize history key captures = samples at hcalm
  have hstate : ∀ l : List AlertSample, (∀ s ∈ l, s.breached = false) → stateOf l = none := by
    intro l hl
    rcases l with _ | ⟨s, _ | ⟨s', l⟩⟩
    · rfl
    · simp [stateOf, alertState, hl s (by simp)]
    · simp [stateOf, alertState, hl s (by simp), hl s' (by simp)]
  refine ⟨hstate samples hcalm, ?_⟩
  induction samples with
  | nil => rfl
  | cons s samples ih =>
    have hrest : ∀ s ∈ samples, s.breached = false := fun s' hs' =>
      hcalm s' (List.mem_cons_of_mem _ hs')
    rw [entries, ih hrest, entered, hstate _ hcalm, List.tail_cons, hstate _ hrest]
    rfl

/-- The run lemma: captures at increasing times keep the alerts of a policy to its samples. -/
theorem followsHistory {key : String} {captures : List Capture} {db : AlertDb}
    (hcandidate : IsCandidate key)
    (hincreasing : captures.Pairwise fun c c' => c.observedAt < c'.observedAt)
    (hnone : db.instances.lookup AlertInstanceRow.policyKey key = none)
    (hnew : ∀ capture ∈ captures, Unrecorded key capture.observedAt db) :
    FollowsHistory key db captures (captures.foldl Postgres.captureAlerts db) ∧
      ∀ observedAt, Unrecorded key observedAt db →
        (∀ capture ∈ captures, capture.observedAt ≠ observedAt) →
        Unrecorded key observedAt (captures.foldl Postgres.captureAlerts db) := by
  induction captures using List.reverseRecOn with
  | nil =>
    exact ⟨⟨by rw [List.foldl_nil, hnone]; exact tracks_nil, by simp [history, entries]⟩,
      fun observedAt h _ => h⟩
  | append_singleton captures capture ih =>
    rw [List.pairwise_append] at hincreasing
    obtain ⟨hbefore, -, hlast⟩ := hincreasing
    have hlater : ∀ c ∈ captures, c.observedAt < capture.observedAt := fun c hc =>
      hlast c hc capture (List.mem_singleton.mpr rfl)
    obtain ⟨hfollows, hkept⟩ := ih hbefore fun c hc => hnew c (List.mem_append_left _ hc)
    rw [List.foldl_append, List.foldl_cons, List.foldl_nil]
    constructor
    · refine hfollows.snoc hcandidate hlater (hkept capture.observedAt ?_ fun c hc => (hlater c hc).ne)
      exact hnew capture (by simp)
    · intro observedAt h hother
      refine foldl_unrecorded _ hcandidate (hkept observedAt h fun c hc => ?_) (Or.inl ?_)
      · exact hother c (List.mem_append_left _ hc)
      · exact hother capture (by simp)

/--
**Alerts follow the history of their samples.** The captures are any, at increasing times, and the
tables hold anything but an instance of the policy and events of it for the times to come.
-/
theorem alerts_follow_history {key : String} {captures : List Capture} {db : AlertDb}
    (hincreasing : captures.Pairwise fun c c' => c.observedAt < c'.observedAt)
    (hnone : db.instances.lookup AlertInstanceRow.policyKey key = none)
    (hnew : ∀ capture ∈ captures, Unrecorded key capture.observedAt db) :
    let after := captures.foldl Postgres.captureAlerts db
    let row := after.instances.lookup AlertInstanceRow.policyKey key
    captures.foldl D1.persistCandidateAlerts db = after ∧
      row.map AlertInstanceRow.state = stateOf (history key captures) ∧
      (∀ r, row = some r → runStart (history key captures) = some r.firstObservedAt) ∧
      eventTimes key after = eventTimes key db ++ entries (history key captures) ∧
      (∀ capture, capture.sample key = none →
        (Postgres.captureAlerts after capture).instances.lookup AlertInstanceRow.policyKey key = row ∧
          eventsOf key (Postgres.captureAlerts after capture) = eventsOf key after) ∧
      ∀ capture, Postgres.captureAlerts (Postgres.captureAlerts after capture) capture =
        Postgres.captureAlerts after capture := by
  intro after row
  refine ⟨List.foldl_ext _ _ _ fun db capture _ => captureAlerts_eq db capture, ?_⟩
  by_cases hcandidate : IsCandidate key
  · have hfollows := (followsHistory hcandidate hincreasing hnone hnew).1
    exact ⟨hfollows.tracks.state, hfollows.tracks.first, hfollows.events,
      fun capture hidle => captureAlerts_idle after (not_evaluated _ (Or.inl hidle)),
      captureAlerts_repeated after⟩
  · obtain ⟨hstate, hentries⟩ := calm_of_not_candidate hcandidate captures
    have hidle : ∀ db capture, _ := fun db capture =>
      captureAlerts_idle db (not_evaluated capture (Or.inr hcandidate))
    have hkept : row = none ∧ eventsOf key after = eventsOf key db := by
      refine List.foldlRecOn captures _ (motive := fun d =>
        d.instances.lookup AlertInstanceRow.policyKey key = none ∧ eventsOf key d = eventsOf key db)
        ⟨hnone, rfl⟩ fun d hd capture _ => ?_
      exact ⟨(hidle d capture).1.trans hd.1, (hidle d capture).2.trans hd.2⟩
    refine ⟨by rw [hkept.1, hstate]; rfl, fun r hr => ?_, ?_, fun capture _ => hidle after capture,
      captureAlerts_repeated after⟩
    · rw [hkept.1] at hr
      cases hr
    · rw [hentries, List.append_nil, eventTimes, eventTimes, hkept.2]

/-! ## A queue that fills and empties -/

namespace BusyQueue

/-- A capture of the executable messages alone. -/
def capture (observedAt : Instant) (sampleCount : Nat) (value : ℚ) : Capture where
  observedAt
  deploymentVersion := "unknown"
  metrics := [⟨"queue.executable", sampleCount, value⟩]
  nodup := List.nodup_singleton _

def captures : List Capture :=
  [capture 600000 1 150, capture 1200000 0 0, capture 1800000 1 200, capture 2400000 1 10]

theorem alerts_follow_busyQueue :
    ((captures.foldl Postgres.captureAlerts ∅).instances.lookup AlertInstanceRow.policyKey
        "queue.executable").map AlertInstanceRow.state = some .recovered ∧
      eventTimes "queue.executable" (captures.foldl Postgres.captureAlerts ∅) =
        [(.pending, 600000), (.firing, 1800000), (.recovered, 2400000)] := by
  have hincreasing : captures.Pairwise fun c c' => c.observedAt < c'.observedAt := by
    simp [captures, capture]
  have hnew : ∀ c ∈ captures, Unrecorded "queue.executable" c.observedAt ∅ :=
    fun _ _ event he => absurd he Table.not_mem_empty
  obtain ⟨-, hstate, -, hevents, -⟩ := alerts_follow_history hincreasing rfl hnew
  exact ⟨hstate.trans (by decide +kernel), hevents.trans (by decide +kernel)⟩

end BusyQueue

end InboxServer
