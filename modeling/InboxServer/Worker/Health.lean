import InboxServer.Domain.IsoDate
import InboxServer.Domain.QueueJob

/-!
# The health of a worker

`apps/worker/src/health.ts`: the state that every health event goes through, and the three
functions that read it. `evaluateLiveness` answers 200 in every state.
-/

namespace InboxServer

inductive WorkerComponent where
  | browser | mihomo | warp
  deriving DecidableEq

/-- `WorkerComponentPhase`, and `WorkerPhase` -/
inductive WorkerPhase where
  | starting | ready | degraded | stopping | failed
  deriving DecidableEq

def WorkerPhase.name : WorkerPhase → String
  | .starting => "starting"
  | .ready => "ready"
  | .degraded => "degraded"
  | .stopping => "stopping"
  | .failed => "failed"

/-- A time that a `Date` can hold, as `Date.now()` reads it. `toISOString` throws at any other. -/
abbrev DateMs := { ms : Int // ms.natAbs ≤ 8640000000000000 }

/-- `Record<WorkerComponent, α>` -/
structure WorkerComponents (α : Type) where
  browser : α
  mihomo : α
  warp : α
  deriving DecidableEq

namespace WorkerComponents

variable {α β : Type}

def get (components : WorkerComponents α) : WorkerComponent → α
  | .browser => components.browser
  | .mihomo => components.mihomo
  | .warp => components.warp

def set (components : WorkerComponents α) (component : WorkerComponent) (value : α) :
    WorkerComponents α :=
  match component with
  | .browser => { components with browser := value }
  | .mihomo => { components with mihomo := value }
  | .warp => { components with warp := value }

/-- `Object.values` -/
def values (components : WorkerComponents α) : List α :=
  [components.browser, components.mihomo, components.warp]

def map (f : α → β) (components : WorkerComponents α) : WorkerComponents β :=
  ⟨f components.browser, f components.mihomo, f components.warp⟩

theorem get_set (components : WorkerComponents α) (component other : WorkerComponent) (value : α) :
    (components.set component value).get other =
      if other = component then value else components.get other := by
  cases component <;> cases other <;> rfl

@[simp] theorem get_map (f : α → β) (components : WorkerComponents α)
    (component : WorkerComponent) : (components.map f).get component = f (components.get component) := by
  cases component <;> rfl

theorem mem_values {components : WorkerComponents α} {value : α} :
    value ∈ components.values ↔ ∃ component, components.get component = value := by
  simp only [values, List.mem_cons, List.not_mem_nil, or_false]
  constructor
  · rintro (rfl | rfl | rfl)
    · exact ⟨.browser, rfl⟩
    · exact ⟨.mihomo, rfl⟩
    · exact ⟨.warp, rfl⟩
  · rintro ⟨component, rfl⟩
    cases component <;> simp [get]

end WorkerComponents

structure WorkerComponentState where
  canAcceptWork : Bool
  observedAt : DateMs
  reasonCode : String
  required : Bool
  state : WorkerPhase
  deriving DecidableEq

structure WorkerHealthState where
  acceptingJobs : Bool
  browserReady : Bool
  components : WorkerComponents WorkerComponentState
  lastLoopAt : DateMs
  phase : WorkerPhase
  startedAt : DateMs
  deriving DecidableEq

inductive WorkerHealthEvent where
  | browserReady (at' : DateMs)
  | componentState (at' : DateMs) (component : WorkerComponent) (reasonCode : String)
      (state : WorkerPhase)
  | loopError (at' : DateMs)
  | loopProgress (at' : DateMs)
  | shutdownStarted (at' : DateMs)
  deriving DecidableEq

/-- The second argument of `createWorkerHealthState`; an absent flag is `false`. -/
structure HealthRequirements where
  mihomoRequired : Bool
  warpRequired : Bool
  deriving DecidableEq

/-! ## The events -/

def startingComponent (observedAt : DateMs) (required : Bool) : WorkerComponentState :=
  if required then
    { canAcceptWork := false, observedAt, reasonCode := "startup_pending", required
      state := .starting }
  else
    { canAcceptWork := true, observedAt, reasonCode := "not_configured", required
      state := .ready }

def WorkerHealthState.deriveState (state : WorkerHealthState) : WorkerHealthState :=
  if !state.acceptingJobs || state.phase = .stopping then { state with phase := .stopping }
  else
    let required := state.components.values.filter (·.required)
    let phase : WorkerPhase :=
      if required.any (·.state = .failed) then .failed
      else if required.any (·.state = .degraded) then .degraded
      else if required.any (·.state ≠ .ready) then .starting
      else .ready
    { state with phase }

def createWorkerHealthState (startedAt : DateMs) (requirements : HealthRequirements) :
    WorkerHealthState :=
  WorkerHealthState.deriveState
    { acceptingJobs := true
      browserReady := false
      components :=
        { browser := startingComponent startedAt true
          mihomo := startingComponent startedAt requirements.mihomoRequired
          warp := startingComponent startedAt requirements.warpRequired }
      lastLoopAt := startedAt
      phase := .starting
      startedAt }

def updateComponent (state : WorkerHealthState) (component : WorkerComponent) (phase : WorkerPhase)
    (reasonCode : String) (observedAt : DateMs) : WorkerHealthState :=
  let components := state.components.set component
    { state.components.get component with
      canAcceptWork := phase = .ready
      observedAt
      reasonCode
      state := phase }
  WorkerHealthState.deriveState
    { state with
      browserReady := components.browser.state = .ready
      components
      lastLoopAt := observedAt }

def reduceWorkerHealthState (state : WorkerHealthState) : WorkerHealthEvent → WorkerHealthState
  | .browserReady at' => updateComponent state .browser .ready "browser_connected" at'
  | .componentState at' component reasonCode phase =>
    updateComponent state component phase reasonCode at'
  | .loopError at' | .loopProgress at' => WorkerHealthState.deriveState { state with lastLoopAt := at' }
  | .shutdownStarted at' =>
    { state with
      acceptingJobs := false
      components := state.components.map fun component =>
        { component with
          canAcceptWork := false
          observedAt := at'
          reasonCode := "shutdown_requested"
          state := .stopping }
      lastLoopAt := at'
      phase := .stopping }

/-! ## The readers -/

structure ComponentSnapshot where
  canAcceptWork : Bool
  observedAt : String
  reasonCode : String
  state : WorkerPhase
  deriving DecidableEq

structure WorkerHealthSnapshot where
  canAcceptWork : Bool
  components : WorkerComponents ComponentSnapshot
  phase : WorkerPhase
  deriving DecidableEq

/-- `ProbeResult`: the snapshot and the status text of its body, and the HTTP status. -/
structure ProbeResult where
  body : WorkerHealthSnapshot
  bodyStatus : String
  status : Nat
  deriving DecidableEq

def healthSnapshot (state : WorkerHealthState) : WorkerHealthSnapshot where
  canAcceptWork :=
    state.acceptingJobs && state.components.values.all fun component =>
      !component.required || component.canAcceptWork
  components := state.components.map fun component =>
    { canAcceptWork := component.canAcceptWork
      observedAt := toISOString component.observedAt.val
      reasonCode := component.reasonCode
      state := component.state }
  phase := state.phase

def evaluateReadiness (state : WorkerHealthState) : ProbeResult :=
  let snapshot := healthSnapshot state
  if state.phase = .ready && snapshot.canAcceptWork then
    { body := snapshot, bodyStatus := "ready", status := 200 }
  else
    { body := snapshot
      bodyStatus := if state.phase = .ready then "degraded" else state.phase.name
      status := 503 }

inductive DeferralReason where
  | browserUnready | mihomoUnready | warpUnready | workerStopping
  deriving DecidableEq

inductive JobAcceptanceDecision where
  | accept
  | defer (reasonCode : DeferralReason) (retryAfterSeconds : Nat)
  deriving DecidableEq

def deferred (reasonCode : DeferralReason) : JobAcceptanceDecision := .defer reasonCode 30

/-- `job.kind === "collect-source" || job.payload.itemKind === "article"` -/
def jobRequiresBrowser (job : QueueJob) : Bool :=
  job.kind = .collectSource || job.itemKind = some .article

/-- The dependencies of every job, in the order of the checks, with the reasons to defer. -/
def networkComponents : List (WorkerComponent × DeferralReason) :=
  [(.warp, .warpUnready), (.mihomo, .mihomoUnready)]

def decideJobAcceptance (state : WorkerHealthState) (job : QueueJob) : JobAcceptanceDecision :=
  if !state.acceptingJobs || state.phase = .stopping then deferred .workerStopping
  else
    let unready := networkComponents.find? fun (component, _) =>
      (state.components.get component).required && (state.components.get component).state ≠ .ready
    match unready with
    | some (_, reason) => deferred reason
    | none =>
      if jobRequiresBrowser job && state.components.browser.state ≠ .ready then
        deferred .browserUnready
      else .accept

end InboxServer
