import InboxServer.Infra.Trace
import InboxServer.Domain.DedupeKey
import InboxServer.Domain.IsoDate
import InboxServer.Worker.RateLimits

/-!
# The job handler

`createJobHandler` of `apps/worker/src/job-handler.ts`, as a program: what it calls, in which order,
and what it makes of the answers. Every call may throw. A delivery is two calls, one that starts it
and one that waits for its end, since a worker may stop in between.
-/

namespace InboxServer

open Infra

/-! ## What the handler is given -/

/-- An entry of `channels.destinations`; its other settings are for the deliverers. -/
structure DestinationEntry where
  enabled : Bool
  itemKind : ItemKind

/-- What the handler reads of `channels`. -/
structure Channels where
  archiveEnabled : Bool
  articleArchive : ArticleArchive
  destinations : Entries DestinationEntry
  nodup : (destinations.map Prod.fst).Nodup

/-- `JobHandlerOptions`, where an option that is a function counts as there or not. -/
structure HandlerOptions where
  channels : Channels
  hasArchive : Bool
  hasBrowser : Bool
  hasNotify : Bool

/-- `ArticleCorrelation` -/
structure ArticleCorrelation where
  dedupeKey : String
  jobId : String
  deriving DecidableEq

structure LoginSession where
  platform : String
  /-- The other fields. -/
  session : Fields
  deriving DecidableEq

structure CollectionResult where
  items : List DispatchItem
  stateUpdates : Entries Json
  hasAfterCommit : Bool
  loginSession : Option LoginSession
  deriving DecidableEq

structure CollectionNotification where
  collected : Nat
  published : Nat
  source : SourceName
  deriving DecidableEq

inductive DeliveryResult where
  | ok
  | quota
  | fail (beforeWrite : Bool) (reasonCode : Option String) (status : Option Nat)
  deriving DecidableEq

/-- A call of `options.archive`, which gets a correlation, or of `options.deliver`. -/
structure Delivery where
  destination : String
  item : DispatchItem
  correlation : Option ArticleCorrelation
  /-- The effect that the delivery is for; the source has it in a local variable. -/
  effectKey : String
  deriving DecidableEq

inductive JobHandlerResult where
  | completed (summary : Fields)
  | deferred (reason : DeferReason) (retryAt : Instant)
  | uncertain (reason : String)
  deriving DecidableEq

/-! ## Calls -/

inductive HandlerCall where
  | now
  | randomUuid
  | collect (source : SourceName)
  | afterCommit
  | notify (summary : CollectionNotification)
  | publishJobs (jobs : List QueueJob)
  | putState (key : String) (value : Json)
  | putLoginSession (platform : String) (session : Fields)
  | consumeRateLimit (input : RateLimitInput)
  | consumeRateLimits (inputs : List RateLimitInput)
  | claimEffect (input : ClaimEffectInput)
  | finishEffect (effectKey : String) (result : EffectResult)
  | startDelivery (delivery : Delivery)
  | awaitDelivery (delivery : Delivery)
  deriving DecidableEq

@[reducible] def HandlerCall.Answer : HandlerCall → Type
  | .now => Instant
  | .randomUuid => String
  | .collect _ => Except Thrown CollectionResult
  | .publishJobs _ => Except Thrown Nat
  | .consumeRateLimit _ => Except Thrown Postgres.RateLimitReply
  | .consumeRateLimits _ => Except Thrown Postgres.RateLimitBatchReply
  | .claimEffect _ => Except Thrown ClaimEffectReply
  | .startDelivery _ => Unit
  | .awaitDelivery _ => Except Thrown DeliveryResult
  | .afterCommit | .notify _ | .putState .. | .putLoginSession .. | .finishEffect .. =>
    Except Thrown Unit

abbrev HandlerEvent := Event HandlerCall HandlerCall.Answer

/-- A part of the handler that ends with a value, or throws. -/
abbrev HandlerProg (α : Type) := Prog HandlerCall HandlerCall.Answer (Except Thrown α)

/-! ## Jobs to publish -/

/-- `toDispatchJobs(items, now, randomUuid)`, with the jobs that `unique` has so far. -/
def toDispatchJobs (env : Env) : List DispatchItem → Entries QueueJob → HandlerProg (List QueueJob)
  | [], unique => .ret (.ok (unique.map Prod.snd))
  | item :: items, unique =>
    let dedupeKey := createItemDedupeKey env.sha256Hex item
    if unique.any (fun e => e.1 = dedupeKey) then toDispatchJobs env items unique
    else .call .now fun createdAt => .call .randomUuid fun jobId =>
      let input : QueueJob :=
        { createdAt := toISOString createdAt, dedupeKey, jobId, payload := .dispatchItem item }
      match parseQueueJob env.zod input.toJson with
      | none => .ret (.error (.error false (env.zod.issueText input.toJson)))
      | some job => toDispatchJobs env items (unique.set dedupeKey job)

/-! ## Deliveries -/

/-- `matchingDestinations(channels, item)` -/
def matchingDestinations (channels : Channels) (item : DispatchItem) : List String :=
  let configured := (channels.destinations.filter fun e =>
    e.2.enabled && e.2.itemKind = item.itemKind).map Prod.fst
  if item.itemKind = .article && channels.archiveEnabled then configured ++ ["article_archive"]
  else configured

/-- `enforceRateLimit(controlPlane, channels, item, current)`, over the inputs. -/
def enforceRateLimit : List RateLimitInput → HandlerProg Unit
  | [] => .ret (.ok ())
  | input :: inputs => .call (.consumeRateLimit input) fun
    | .error e => .ret (.error e)
    | .ok (.refused ..) =>
      .ret (.error (.error true ("429 " ++ input.scope ++ " rate limit unavailable")))
    | .ok (.allowed _) => enforceRateLimit inputs

/-- The message of a failure whose outcome is known. -/
def failureMessage (beforeWrite : Bool) (reasonCode : Option String) (status : Option Nat) :
    String :=
  if beforeWrite then
    ": ".intercalate
      (((reasonCode.getD "destination_failed_before_write").map fun c => if c = '_' then ' ' else c)
        :: (status.map fun s => "HTTP " ++ toString s).toList)
  else "destination rejected request: " ++ (status.map toString).getD "unknown status"

example : failureMessage true (some "zhihu_api_rejected") (some 403) =
    "zhihu api rejected: HTTP 403" := by decide +kernel

/-- `!knownBeforeWrite && (result.status === undefined || result.status >= 500)` -/
def outcomeUnknown (beforeWrite : Bool) (status : Option Nat) : Bool :=
  !beforeWrite && status.all (500 ≤ ·)

/--
What is recorded of a delivery that has ended, and how the handler goes on: `none` is to go on with
the next destination.
-/
def deliveryVerdict : Except Thrown DeliveryResult →
    EffectResult × Except Thrown (Option JobHandlerResult)
  | .error _ =>
    (⟨.uncertain, some .permanent, some "external delivery outcome uncertain"⟩,
      .ok (some (.uncertain "external_delivery_uncertain")))
  | .ok .ok => (⟨.done, none, none⟩, .ok none)
  | .ok .quota =>
    (⟨.failed, some .retryable, some "destination quota unavailable"⟩,
      .error (.error true "429 destination quota unavailable"))
  | .ok (.fail beforeWrite reasonCode status) =>
    let failure := classifyJobFailure (.error false (failureMessage beforeWrite reasonCode status))
    if outcomeUnknown beforeWrite status then
      (⟨.uncertain, some .permanent, some "external delivery outcome uncertain"⟩,
        .ok (some (.uncertain "external_delivery_uncertain")))
    else
      (⟨.failed, some failure.errorClass, some failure.safeMessage⟩,
        .error (.error false failure.safeMessage))

/-- The delivery, and the record of its outcome. -/
def deliver (delivery : Delivery) : HandlerProg (Option JobHandlerResult) :=
  .call (.startDelivery delivery) fun _ => .call (.awaitDelivery delivery) fun result =>
    .call (.finishEffect delivery.effectKey (deliveryVerdict result).1) fun
      | .error e => .ret (.error e)
      | .ok () => .ret (deliveryVerdict result).2

/-- The effect of a job at a destination. -/
def effectKeyOf (job : QueueJob) (destination : String) : String :=
  job.dedupeKey ++ ":" ++ destination

/-- The delivery to a destination, by `options.archive` where it is there for it. -/
def deliveryTo (options : HandlerOptions) (job : QueueJob) (item : DispatchItem)
    (destination : String) : Delivery where
  destination
  item
  correlation :=
    if destination = "article_archive" && item.itemKind = .article && options.hasArchive then
      some { dedupeKey := job.dedupeKey, jobId := job.jobId }
    else none
  effectKey := effectKeyOf job destination

/-- An article has consumed its limits before the first claim. -/
def limitItem (options : HandlerOptions) (item : DispatchItem) : HandlerProg Unit :=
  if item.itemKind = .article then .ret (.ok ())
  else .call .now fun current =>
    enforceRateLimit (rateLimitInputs options.channels.articleArchive item current)

/-- The body of the loop over the destinations. -/
def deliverTo (options : HandlerOptions) (job : QueueJob) (item : DispatchItem)
    (destination : String) : HandlerProg (Option JobHandlerResult) :=
  .call (.claimEffect
      { destination, effectKey := effectKeyOf job destination, jobId := job.jobId }) fun
    | .error e => .ret (.error e)
    | .ok .done => .ret (.ok none)
    | .ok .uncertain => .ret (.ok (some (.uncertain "effect_uncertain")))
    | .ok (.busy retryAt) => .ret (.ok (some (.deferred .effectBusy retryAt)))
    | .ok (.claimed _) =>
      (limitItem options item).andThen fun _ => deliver (deliveryTo options job item destination)

/-- The loop over the destinations: it ends with `states`, or the handler returns from within. -/
def deliverAll (options : HandlerOptions) (job : QueueJob) (item : DispatchItem) :
    List String → Fields → HandlerProg (JobHandlerResult ⊕ Fields)
  | [], states => .ret (.ok (.inr states))
  | destination :: destinations, states =>
    (deliverTo options job item destination).andThen fun result =>
      match result with
      | some result => .ret (.ok (.inl result))
      | none => deliverAll options job item destinations (states.set destination (.str "done"))

/-- The article that a link is archived as; an empty title counts as none. -/
def followUpItem (requestedAt : Instant) (tags : Option (List String)) (title : Option String)
    (url : String) : DispatchItem :=
  .article (toISOString requestedAt) tags (title.filter (· ≠ "")) url

/-- The article job of a link, where articles are archived. -/
def followUp (env : Env) (options : HandlerOptions) : DispatchItem → HandlerProg Unit
  | .link tags title url =>
    if options.channels.archiveEnabled then
      .call .now fun requestedAt =>
        (toDispatchJobs env [followUpItem requestedAt tags title url] []).andThen fun jobs =>
          .call (.publishJobs jobs) fun
            | .error e => .ret (.error e)
            | .ok _ => .ret (.ok ())
    else .ret (.ok ())
  | .text .. | .file .. | .article .. => .ret (.ok ())

/-- The limits of an article, before anything is claimed: an instant is when to come back. -/
def limitArticle (options : HandlerOptions) (item : DispatchItem) (destinations : List String) :
    HandlerProg (Option Instant) :=
  if item.itemKind = .article && !destinations.isEmpty then
    .call .now fun current =>
      .call (.consumeRateLimits (rateLimitInputs options.channels.articleArchive item current)) fun
        | .error e => .ret (.error e)
        | .ok (.refused _ retryAt) => .ret (.ok (some retryAt))
        | .ok (.allowed _) => .ret (.ok none)
  else .ret (.ok none)

/-- After the loop. -/
def afterDeliveries (env : Env) (options : HandlerOptions) (item : DispatchItem) :
    JobHandlerResult ⊕ Fields → HandlerProg JobHandlerResult
  | .inl result => .ret (.ok result)
  | .inr states =>
    (followUp env options item).andThen fun _ =>
      .ret (.ok (.completed [("destinations", .obj states)]))

/-- A dispatch-item job. -/
def dispatchItem (env : Env) (options : HandlerOptions) (job : QueueJob) (item : DispatchItem) :
    HandlerProg JobHandlerResult :=
  let destinations := matchingDestinations options.channels item
  (limitArticle options item destinations).andThen fun limited =>
    match limited with
    | some retryAt => .ret (.ok (.deferred .rateLimit retryAt))
    | none =>
      (deliverAll options job item destinations []).andThen (afterDeliveries env options item)

/-! ## Collections -/

/-- `sourceRequiresBrowser(source)` -/
def sourceRequiresBrowser (source : SourceName) : Bool :=
  source ≠ .telegram && source ≠ .dida && source ≠ .githubStars

/-- `notifyCollection(options, job, collected, published)` -/
def notifyCollection (options : HandlerOptions) (job : QueueJob) (source : SourceName)
    (collected published : Nat) : HandlerProg Unit :=
  if !options.hasNotify || collected = 0 then .ret (.ok ())
  else
    let effectKey := effectKeyOf job "notification"
    .call (.claimEffect { destination := "notification", effectKey, jobId := job.jobId }) fun
      | .error e => .ret (.error e)
      | .ok .done | .ok .uncertain | .ok (.busy _) => .ret (.ok ())
      | .ok (.claimed _) => .call (.notify { collected, published, source }) fun
        | .error e => .ret (.error e)
        | .ok () => .call (.finishEffect effectKey ⟨.done, none, none⟩) .ret

/-- `for (const update of result.stateUpdates)` -/
def putStates : Entries Json → HandlerProg Unit
  | [] => .ret (.ok ())
  | (key, value) :: updates => .call (.putState key value) fun
    | .error e => .ret (.error e)
    | .ok () => putStates updates

/-- `result.afterCommit?.()` -/
def commitCollection (result : CollectionResult) : HandlerProg Unit :=
  if result.hasAfterCommit then .call .afterCommit .ret else .ret (.ok ())

/-- A shadow run leaves a note of what it has found, any other publishes it. -/
def publishCollection (options : HandlerOptions) (job : QueueJob) (source : SourceName)
    (shadow : Bool) (result : CollectionResult) (jobs : List QueueJob) : HandlerProg Unit :=
  if shadow then
    .call .now fun observedAt =>
      .call (.putState ("shadow:" ++ source.name)
        (.obj [("count", .num (toString jobs.length)),
          ("dedupeKeys", .arr (jobs.map fun job => .str job.dedupeKey)),
          ("observedAt", .str (toISOString observedAt))])) .ret
  else
    .call (.publishJobs jobs) fun
      | .error e => .ret (.error e)
      | .ok _ =>
        (putStates result.stateUpdates).andThen fun _ =>
          (commitCollection result).andThen fun _ =>
            notifyCollection options job source result.items.length jobs.length

def putSession : Option LoginSession → HandlerProg Unit
  | some session => .call (.putLoginSession session.platform session.session) .ret
  | none => .ret (.ok ())

/-- A collect-source job. -/
def collectSource (env : Env) (options : HandlerOptions) (job : QueueJob) (shadow : Bool)
    (source : SourceName) : HandlerProg JobHandlerResult :=
  if sourceRequiresBrowser source && !options.hasBrowser then
    .ret (.error (.error false "Browser is required for this source"))
  else .call (.collect source) fun
    | .error e => .ret (.error e)
    | .ok result =>
      (toDispatchJobs env result.items []).andThen fun jobs =>
        (publishCollection options job source shadow result jobs).andThen fun _ =>
          (putSession result.loginSession).andThen fun _ =>
            .ret (.ok (.completed [("collected", .num (toString result.items.length)),
              ("published", .num (toString (if shadow then 0 else jobs.length))),
              ("shadow", .bool shadow), ("source", .str source.name)]))

/-- The handler that `createJobHandler(options)` makes. -/
def handle (env : Env) (options : HandlerOptions) (input : Json) : HandlerProg JobHandlerResult :=
  match parseQueueJob env.zod input with
  | none => .ret (.error (.error false (env.zod.issueText input)))
  | some job =>
    match job.payload with
    | .collectSource shadow source _ => collectSource env options job shadow source
    | .dispatchItem item => dispatchItem env options job item

end InboxServer
