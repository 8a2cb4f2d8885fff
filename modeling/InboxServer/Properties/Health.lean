import InboxServer.Worker.Health

/-!
# The gates of a worker's health

* `health_gates` — whatever events come in whatever order, readiness and the acceptance of jobs
  follow from the last reported state of each component until the shutdown, and stay closed from
  then on
-/

namespace InboxServer

/-! ## What the events report -/

def HealthRequirements.requires (requirements : HealthRequirements) : WorkerComponent → Bool
  | .browser => true
  | .mihomo => requirements.mihomoRequired
  | .warp => requirements.warpRequired

namespace WorkerHealthEvent

def reports (component : WorkerComponent) : WorkerHealthEvent → Option WorkerPhase
  | .browserReady _ => if component = .browser then some .ready else none
  | .componentState _ reported _ state => if component = reported then some state else none
  | .loopError _ | .loopProgress _ | .shutdownStarted _ => none

def shutsDown : WorkerHealthEvent → Bool
  | .shutdownStarted _ => true
  | _ => false

end WorkerHealthEvent

/-- The state a component was last reported in; before any report, the one it was created in. -/
def lastReported (requirements : HealthRequirements) (component : WorkerComponent)
    (events : List WorkerHealthEvent) : WorkerPhase :=
  ((events.filterMap (·.reports component)).getLast?).getD
    (if requirements.requires component then .starting else .ready)

theorem lastReported_concat (requirements : HealthRequirements) (component : WorkerComponent)
    (events : List WorkerHealthEvent) (event : WorkerHealthEvent) :
    lastReported requirements component (events ++ [event]) =
      (event.reports component).getD (lastReported requirements component events) := by
  unfold lastReported
  cases hreport : event.reports component with
  | none => simp [hreport]
  | some state => simp [hreport]

/-! ## The phase -/

/-- What the phase of a state says about the rest of it. -/
structure PhaseInv (state : WorkerHealthState) : Prop where
  stopping : state.phase = .stopping ↔ state.acceptingJobs = false
  ready : state.acceptingJobs = true → (state.phase = .ready ↔
    ∀ component, (state.components.get component).required = true →
      (state.components.get component).state = .ready)

namespace WorkerHealthState

@[simp] theorem deriveState_components (state : WorkerHealthState) :
    state.deriveState.components = state.components := by
  unfold deriveState
  split <;> rfl

@[simp] theorem deriveState_acceptingJobs (state : WorkerHealthState) :
    state.deriveState.acceptingJobs = state.acceptingJobs := by
  unfold deriveState
  split <;> rfl

/-- The phase of a worker that has not been told to stop. -/
theorem deriveState_phase {state : WorkerHealthState} (haccepting : state.acceptingJobs = true)
    (hphase : state.phase ≠ .stopping) :
    state.deriveState.phase =
      let required := state.components.values.filter (·.required)
      if required.any (·.state = .failed) then .failed
      else if required.any (·.state = .degraded) then .degraded
      else if required.any (·.state ≠ .ready) then .starting
      else .ready := by
  unfold deriveState
  rw [if_neg (by simp [haccepting, hphase])]

theorem all_required_ready {state : WorkerHealthState} :
    (state.components.values.filter (·.required)).any (·.state ≠ .ready) = false ↔
      ∀ component, (state.components.get component).required = true →
        (state.components.get component).state = .ready := by
  simp only [List.any_eq_false, List.mem_filter, WorkerComponents.mem_values, decide_eq_true_eq,
    not_not]
  constructor
  · intro h component hrequired
    exact h _ ⟨⟨component, rfl⟩, hrequired⟩
  · rintro h _ ⟨⟨component, rfl⟩, hrequired⟩
    exact h component hrequired

theorem phaseInv_deriveState {state : WorkerHealthState}
    (h : state.acceptingJobs = true → state.phase ≠ .stopping) : PhaseInv state.deriveState := by
  by_cases haccepting : state.acceptingJobs = true
  · have hphase := h haccepting
    -- a required component that failed or is degraded is one that is not ready
    have hnone (phase : WorkerPhase) (hready : phase ≠ .ready)
        (hall : (state.components.values.filter (·.required)).any (·.state ≠ .ready) = false) :
        (state.components.values.filter (·.required)).any (·.state = phase) = false := by
      rw [List.any_eq_false] at hall ⊢
      intro component hmem
      have := hall component hmem
      simp only [decide_eq_true_eq, not_not] at this ⊢
      rw [this]
      exact Ne.symm hready
    constructor
    · rw [deriveState_acceptingJobs, deriveState_phase haccepting hphase, haccepting]
      dsimp only
      split_ifs <;> simp
    · intro _
      rw [deriveState_components, ← all_required_ready, deriveState_phase haccepting hphase]
      dsimp only
      constructor
      · intro hready
        split_ifs at hready with hfailed hdegraded hstarting
        rw [Bool.not_eq_true] at hstarting
        exact hstarting
      · intro hall
        simp only [hall, hnone .failed (by decide) hall, hnone .degraded (by decide) hall]
        rfl
  · rw [Bool.not_eq_true] at haccepting
    constructor
    · rw [deriveState_acceptingJobs]
      simp [deriveState, haccepting]
    · simp [haccepting]

end WorkerHealthState

/-! ## The runs -/

/-- The state after some events. -/
def healthAfter (startedAt : DateMs) (requirements : HealthRequirements)
    (events : List WorkerHealthEvent) : WorkerHealthState :=
  events.foldl reduceWorkerHealthState (createWorkerHealthState startedAt requirements)

/-- What the components and the gate of a state have to do with the events before it. -/
structure ReportInv (requirements : HealthRequirements) (events : List WorkerHealthEvent)
    (state : WorkerHealthState) : Prop where
  required (component : WorkerComponent) :
    (state.components.get component).required = requirements.requires component
  canAcceptWork (component : WorkerComponent) :
    (state.components.get component).canAcceptWork =
      decide ((state.components.get component).state = .ready)
  accepting : state.acceptingJobs = !events.any (·.shutsDown)
  reported : state.acceptingJobs = true → ∀ component,
    (state.components.get component).state = lastReported requirements component events

theorem reportInv_create (startedAt : DateMs) (requirements : HealthRequirements) :
    ReportInv requirements [] (createWorkerHealthState startedAt requirements) where
  required component := by
    rw [createWorkerHealthState, WorkerHealthState.deriveState_components]
    cases component
    · rfl
    · dsimp only [WorkerComponents.get, startingComponent]
      split <;> rfl
    · dsimp only [WorkerComponents.get, startingComponent]
      split <;> rfl
  canAcceptWork component := by
    rw [createWorkerHealthState, WorkerHealthState.deriveState_components]
    cases component <;> dsimp only [WorkerComponents.get, startingComponent] <;> split <;> rfl
  accepting := by
    rw [createWorkerHealthState, WorkerHealthState.deriveState_acceptingJobs]
    rfl
  reported _ component := by
    rw [createWorkerHealthState, WorkerHealthState.deriveState_components]
    cases component <;> dsimp only [WorkerComponents.get, startingComponent, lastReported,
      HealthRequirements.requires] <;> split <;> simp_all

theorem ReportInv.update {requirements : HealthRequirements} {events : List WorkerHealthEvent}
    {state : WorkerHealthState} (h : ReportInv requirements events state)
    {event : WorkerHealthEvent} {component : WorkerComponent} {phase : WorkerPhase}
    (hshut : event.shutsDown = false)
    (hreports : ∀ other, event.reports other = if other = component then some phase else none)
    (reasonCode : String) (observedAt : DateMs) :
    ReportInv requirements (events ++ [event])
      (updateComponent state component phase reasonCode observedAt) := by
  unfold updateComponent
  constructor
  · intro other
    rw [WorkerHealthState.deriveState_components, WorkerComponents.get_set]
    split
    next hsame => rw [hsame]; exact h.required component
    next => exact h.required other
  · intro other
    rw [WorkerHealthState.deriveState_components, WorkerComponents.get_set]
    split
    next => rfl
    next => exact h.canAcceptWork other
  · rw [WorkerHealthState.deriveState_acceptingJobs, List.any_append, h.accepting]
    simp [hshut]
  · intro haccepting other
    rw [WorkerHealthState.deriveState_acceptingJobs] at haccepting
    rw [WorkerHealthState.deriveState_components, WorkerComponents.get_set, lastReported_concat,
      hreports]
    split
    next => rfl
    next => exact h.reported haccepting other

theorem ReportInv.step {requirements : HealthRequirements} {events : List WorkerHealthEvent}
    {state : WorkerHealthState} (h : ReportInv requirements events state)
    (event : WorkerHealthEvent) :
    ReportInv requirements (events ++ [event]) (reduceWorkerHealthState state event) := by
  -- the events of the loop report nothing and change no component
  have hloop (event : WorkerHealthEvent) (hshut : event.shutsDown = false)
      (hreports : ∀ component, event.reports component = none) (at' : DateMs) :
      ReportInv requirements (events ++ [event])
        (WorkerHealthState.deriveState { state with lastLoopAt := at' }) := by
    constructor
    · intro component
      rw [WorkerHealthState.deriveState_components]
      exact h.required component
    · intro component
      rw [WorkerHealthState.deriveState_components]
      exact h.canAcceptWork component
    · rw [WorkerHealthState.deriveState_acceptingJobs, List.any_append]
      simp [hshut, h.accepting]
    · intro haccepting component
      rw [WorkerHealthState.deriveState_acceptingJobs] at haccepting
      rw [WorkerHealthState.deriveState_components, lastReported_concat, hreports]
      exact h.reported haccepting component
  cases event with
  | browserReady at' => exact h.update rfl (fun _ => rfl) _ _
  | componentState at' component reasonCode phase => exact h.update rfl (fun _ => rfl) _ _
  | loopError at' => exact hloop _ rfl (fun _ => rfl) at'
  | loopProgress at' => exact hloop _ rfl (fun _ => rfl) at'
  | shutdownStarted at' =>
    constructor
    · intro component
      simpa [reduceWorkerHealthState] using h.required component
    · intro component
      simp [reduceWorkerHealthState]
    · simp [reduceWorkerHealthState, WorkerHealthEvent.shutsDown]
    · intro haccepting
      simp [reduceWorkerHealthState] at haccepting

theorem PhaseInv.step {state : WorkerHealthState} (h : PhaseInv state)
    (event : WorkerHealthEvent) : PhaseInv (reduceWorkerHealthState state event) := by
  have hgate : state.acceptingJobs = true → state.phase ≠ .stopping := by
    intro haccepting hstopping
    rw [h.stopping.mp hstopping] at haccepting
    cases haccepting
  cases event with
  | browserReady | componentState => exact WorkerHealthState.phaseInv_deriveState hgate
  | loopError | loopProgress => exact WorkerHealthState.phaseInv_deriveState hgate
  | shutdownStarted at' => exact ⟨by simp [reduceWorkerHealthState], by simp [reduceWorkerHealthState]⟩

theorem healthAfter_inv (startedAt : DateMs) (requirements : HealthRequirements)
    (events : List WorkerHealthEvent) :
    ReportInv requirements events (healthAfter startedAt requirements events) ∧
      PhaseInv (healthAfter startedAt requirements events) := by
  induction events using List.reverseRecOn with
  | nil =>
    refine ⟨reportInv_create startedAt requirements, ?_⟩
    rw [healthAfter, List.foldl_nil, createWorkerHealthState]
    exact WorkerHealthState.phaseInv_deriveState fun _ h => by cases h
  | append_singleton events event ih =>
    rw [healthAfter, List.foldl_append]
    exact ⟨ih.1.step event, ih.2.step event⟩

/-! ## The gates -/

/-- While jobs are accepted, readiness is whether every required component is ready. -/
theorem evaluateReadiness_status {requirements : HealthRequirements}
    {events : List WorkerHealthEvent} {state : WorkerHealthState}
    (hreport : ReportInv requirements events state) (hphase : PhaseInv state)
    (haccepting : state.acceptingJobs = true) :
    (evaluateReadiness state).status = 200 ↔ ∀ component, requirements.requires component = true →
      lastReported requirements component events = .ready := by
  have hready : state.phase = .ready ↔ ∀ component, requirements.requires component = true →
      lastReported requirements component events = .ready := by
    rw [hphase.ready haccepting]
    constructor
    · intro h component hrequires
      rw [← hreport.reported haccepting]
      exact h component ((hreport.required component).trans hrequires)
    · intro h component hrequired
      rw [hreport.reported haccepting]
      exact h component ((hreport.required component).symm.trans hrequired)
  -- a phase of `ready` leaves the snapshot nothing to refuse
  have hsnapshot : state.phase = .ready → (healthSnapshot state).canAcceptWork = true := by
    intro hphaseReady
    have hall := (hphase.ready haccepting).mp hphaseReady
    simp only [healthSnapshot, haccepting, Bool.true_and, List.all_eq_true,
      WorkerComponents.mem_values]
    rintro _ ⟨component, rfl⟩
    rw [hreport.canAcceptWork]
    cases hrequired : (state.components.get component).required with
    | false => rfl
    | true => simp [hall component hrequired]
  unfold evaluateReadiness
  dsimp only
  by_cases hphaseReady : state.phase = .ready
  · rw [if_pos (by simp [hphaseReady, hsnapshot hphaseReady])]
    simpa using hready.mp hphaseReady
  · rw [if_neg (by simp [hphaseReady])]
    constructor
    · intro h
      cases h
    · intro h
      exact absurd (hready.mpr h) hphaseReady

/-- While jobs are accepted, a job is deferred for the first dependency of it that is not ready. -/
theorem decideJobAcceptance_defer {requirements : HealthRequirements}
    {events : List WorkerHealthEvent} {state : WorkerHealthState}
    (hreport : ReportInv requirements events state) (hphase : PhaseInv state)
    (haccepting : state.acceptingJobs = true) {job : QueueJob}
    (h : decideJobAcceptance state job ≠ .accept) :
    (∃ component, (component = .warp ∨ component = .mihomo) ∧
      requirements.requires component = true ∧
      lastReported requirements component events ≠ .ready) ∨
    (jobRequiresBrowser job = true ∧ lastReported requirements .browser events ≠ .ready) := by
  have hstopping : state.phase ≠ .stopping := by
    intro hstopping
    rw [hphase.stopping.mp hstopping] at haccepting
    cases haccepting
  unfold decideJobAcceptance at h
  rw [if_neg (by simp [haccepting, hstopping])] at h
  dsimp only at h
  split at h
  next component reason hfind =>
    have hmem := List.mem_of_find?_eq_some hfind
    have hunready := List.find?_some hfind
    simp only [Bool.and_eq_true, decide_eq_true_eq, hreport.required,
      hreport.reported haccepting] at hunready
    refine .inl ⟨component, ?_, hunready⟩
    simp only [networkComponents, List.mem_cons, Prod.mk.injEq, List.not_mem_nil, or_false] at hmem
    rcases hmem with ⟨hwarp, -⟩ | ⟨hmihomo, -⟩
    · exact .inl hwarp
    · exact .inr hmihomo
  next =>
    split at h
    next hbrowser =>
      simp only [Bool.and_eq_true, decide_eq_true_eq] at hbrowser
      refine .inr ⟨hbrowser.1, ?_⟩
      rw [← hreport.reported haccepting]
      exact hbrowser.2
    next => exact absurd rfl h

/--
The gates after any events: from a shutdown on everything is closed; until then readiness is 200
exactly while every required component was last reported ready, every job is accepted then, and a
job is deferred only for a dependency of its own that was not.
-/
theorem health_gates (startedAt : DateMs) (requirements : HealthRequirements)
    (events : List WorkerHealthEvent) :
    let state := healthAfter startedAt requirements events
    ((∃ event ∈ events, event.shutsDown = true) →
      state.phase = .stopping ∧ (∀ job, decideJobAcceptance state job = .defer .workerStopping 30) ∧
        (evaluateReadiness state).status = 503) ∧
    ((∀ event ∈ events, event.shutsDown = false) →
      ((evaluateReadiness state).status = 200 ↔ ∀ component,
        requirements.requires component = true →
          lastReported requirements component events = .ready) ∧
      ((evaluateReadiness state).status = 200 → ∀ job, decideJobAcceptance state job = .accept) ∧
      ∀ job, decideJobAcceptance state job ≠ .accept →
        (∃ component, (component = .warp ∨ component = .mihomo) ∧
          requirements.requires component = true ∧
          lastReported requirements component events ≠ .ready) ∨
        (jobRequiresBrowser job = true ∧ lastReported requirements .browser events ≠ .ready)) ∧
    ∀ component, (state.components.get component).canAcceptWork = true ↔
      (state.components.get component).state = .ready := by
  intro state
  obtain ⟨hreport, hphase⟩ := healthAfter_inv startedAt requirements events
  refine ⟨?_, ?_, ?_⟩
  · intro hshut
    -- after a shutdown nothing puts the flag back
    have haccepting : state.acceptingJobs = false := by
      rw [hreport.accepting, List.any_eq_true.mpr hshut]
      rfl
    have hstopping := hphase.stopping.mpr haccepting
    refine ⟨hstopping, ?_, ?_⟩
    · intro job
      unfold decideJobAcceptance
      rw [if_pos (by simp [haccepting])]
      rfl
    · have hnotReady : state.phase ≠ .ready := by
        rw [hstopping]
        decide
      unfold evaluateReadiness
      dsimp only
      rw [if_neg (by simp [hnotReady])]
  · intro hrunning
    -- without one the phase follows what the components have reported last
    have haccepting : state.acceptingJobs = true := by
      rw [hreport.accepting, Bool.not_eq_true', List.any_eq_false]
      intro event hmem
      simp [hrunning event hmem]
    have hstatus := evaluateReadiness_status hreport hphase haccepting
    have hdefer (job : QueueJob) (h : decideJobAcceptance state job ≠ .accept) :=
      decideJobAcceptance_defer hreport hphase haccepting h
    refine ⟨hstatus, ?_, hdefer⟩
    intro hready job
    have hall := hstatus.mp hready
    by_contra hnot
    rcases hdefer job hnot with ⟨component, -, hrequires, hunready⟩ | ⟨-, hunready⟩
    · exact hunready (hall component hrequires)
    · exact hunready (hall .browser rfl)
  · intro component
    rw [hreport.canAcceptWork, decide_eq_true_eq]

end InboxServer
