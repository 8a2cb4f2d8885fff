import InboxServer.Infra.Contract
import InboxServer.Worker.JobHandler

/-!
# Which calls the parts of the handler make

* `aside_followUp`, `aside_collectSource` — only the loop over the destinations of an item asks for
  limits and delivers
-/

namespace InboxServer

open Infra

def HandlerCall.isLimit : HandlerCall → Bool
  | .consumeRateLimit _ | .consumeRateLimits _ => true
  | _ => false

def HandlerCall.delivers : HandlerCall → Bool
  | .startDelivery _ | .awaitDelivery _ => true
  | _ => false

/-- A part of the handler that asks for no limit, and delivers nothing. -/
abbrev Aside {α : Type} (p : HandlerProg α) : Prop :=
  p.Makes fun c => c.isLimit = false ∧ c.delivers = false

theorem Aside.andThen {α β : Type} {p : HandlerProg α} {f : α → HandlerProg β} (hp : Aside p)
    (hf : ∀ a, Aside (f a)) : Aside (p.andThen f) := by
  refine Prog.Makes.bind hp fun result => ?_
  cases result with
  | ok a => exact hf a
  | error e => trivial

theorem aside_toDispatchJobs (env : Env) (items : List DispatchItem) (unique : Entries QueueJob) :
    Aside (toDispatchJobs env items unique) := by
  induction items generalizing unique with
  | nil => trivial
  | cons item items ih =>
    unfold toDispatchJobs
    dsimp only
    split
    · exact ih unique
    · refine ⟨⟨rfl, rfl⟩, fun createdAt => ⟨⟨rfl, rfl⟩, fun jobId => ?_⟩⟩
      dsimp only
      split
      · trivial
      · exact ih _

theorem aside_followUp (env : Env) (options : HandlerOptions) (item : DispatchItem) :
    Aside (followUp env options item) := by
  cases item with
  | text | file | article => trivial
  | link tags title url =>
    rw [followUp]
    split
    · refine ⟨⟨rfl, rfl⟩, fun requestedAt => (aside_toDispatchJobs env _ []).andThen fun jobs => ?_⟩
      refine ⟨⟨rfl, rfl⟩, fun reply => ?_⟩
      cases reply <;> trivial
    · trivial

theorem aside_notifyCollection (options : HandlerOptions) (job : QueueJob) (source : SourceName)
    (collected published : Nat) : Aside (notifyCollection options job source collected published) := by
  unfold notifyCollection
  split
  · trivial
  · refine ⟨⟨rfl, rfl⟩, fun reply => ?_⟩
    rcases reply with e | ⟨attempts⟩ | ⟨retryAt⟩ | ⟨⟩ | ⟨⟩
    · trivial
    · refine ⟨⟨rfl, rfl⟩, fun reply => ?_⟩
      cases reply with
      | error e => trivial
      | ok _ => exact ⟨⟨rfl, rfl⟩, fun _ => trivial⟩
    all_goals trivial

theorem aside_putStates (updates : Entries Json) : Aside (putStates updates) := by
  induction updates with
  | nil => trivial
  | cons e updates ih =>
    refine ⟨⟨rfl, rfl⟩, fun reply => ?_⟩
    cases reply with
    | error e => trivial
    | ok _ => exact ih

theorem aside_publishCollection (options : HandlerOptions) (job : QueueJob) (source : SourceName)
    (shadow : Bool) (result : CollectionResult) (jobs : List QueueJob) :
    Aside (publishCollection options job source shadow result jobs) := by
  unfold publishCollection
  split
  · exact ⟨⟨rfl, rfl⟩, fun observedAt => ⟨⟨rfl, rfl⟩, fun _ => trivial⟩⟩
  · refine ⟨⟨rfl, rfl⟩, fun reply => ?_⟩
    cases reply with
    | error e => trivial
    | ok _ =>
      refine (aside_putStates result.stateUpdates).andThen fun _ => Aside.andThen ?_ fun _ =>
        aside_notifyCollection options job source _ _
      unfold commitCollection
      split
      · exact ⟨⟨rfl, rfl⟩, fun _ => trivial⟩
      · trivial

theorem aside_collectSource (env : Env) (options : HandlerOptions) (job : QueueJob) (shadow : Bool)
    (source : SourceName) : Aside (collectSource env options job shadow source) := by
  unfold collectSource
  split
  · trivial
  · refine ⟨⟨rfl, rfl⟩, fun reply => ?_⟩
    cases reply with
    | error e => trivial
    | ok result =>
      refine (aside_toDispatchJobs env result.items []).andThen fun jobs =>
        (aside_publishCollection options job source shadow result jobs).andThen fun _ =>
          Aside.andThen ?_ fun _ => trivial
      cases result.loginSession with
      | none => trivial
      | some session => exact ⟨⟨rfl, rfl⟩, fun _ => trivial⟩

/-- The limits are asked for and nothing else. -/
theorem limits_enforceRateLimit (inputs : List RateLimitInput) :
    (enforceRateLimit inputs).Makes fun c => c.isLimit = true := by
  induction inputs with
  | nil => trivial
  | cons input inputs ih =>
    refine ⟨rfl, fun reply => ?_⟩
    rcases reply with e | ⟨count⟩ | ⟨count, retryAt⟩
    · trivial
    · exact ih
    · trivial

end InboxServer
