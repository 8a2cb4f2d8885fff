import InboxServer.Infra.Machine

/-!
# The webhook of the worker

`createWorkerWebhookHandler` of `apps/worker/src/health-server.ts`. Between two awaits a handler runs
without interruption, so a step is what one request does up to its next await: it arrives, or its
call of `processBatch` ends. What it reads on the way is in the step. The logs are left out; instead
the server keeps a record of what the requests have done.
-/

namespace InboxServer

open Infra

/-! ## Requests and responses -/

inductive WorkerWebhookAvailability where
  | notReady | ready | stopping
  deriving DecidableEq

structure WorkerWebhookRequest where
  authorization : Option String
  method : Option String
  deriving DecidableEq

inductive WebhookStatus where
  | methodNotAllowed | ok | unauthorized | unavailable
  deriving DecidableEq

structure WorkerWebhookResponse where
  bodyStatus : WebhookStatus
  retryAfterSeconds : Option Nat
  status : Nat
  deriving DecidableEq

namespace WorkerWebhookResponse

def methodNotAllowed : WorkerWebhookResponse := ⟨.methodNotAllowed, none, 405⟩

def unauthorized : WorkerWebhookResponse := ⟨.unauthorized, none, 401⟩

def unavailable : WorkerWebhookResponse := ⟨.unavailable, some 5, 503⟩

def ok : WorkerWebhookResponse := ⟨.ok, none, 200⟩

end WorkerWebhookResponse

def webhookDrainBudgetMs : ℚ := 720000

structure WebhookOptions where
  token : String
  /-- The digest of `createHash("sha256")`. -/
  sha256 : String → List UInt8

/-- `hasValidBearerToken(authorization, token)` -/
def hasValidBearerToken (options : WebhookOptions) (authorization : Option String) : Bool :=
  match authorization with
  | none => false
  | some text =>
    "Bearer ".toList.isPrefixOf text.toList &&
      options.sha256 (String.ofList (text.toList.drop "Bearer ".length)) =
        options.sha256 options.token

/-! ## The server -/

inductive WebhookEvent where
  | arrived (request : WorkerWebhookRequest)
  /-- `getAvailability()` -/
  | read (availability : WorkerWebhookAvailability)
  /-- `processBatch()` is called, when the time since the start of the request is `elapsed`. -/
  | started (elapsed : ℚ)
  /-- The call of `processBatch` ends with a count, or throws. -/
  | ended (outcome : Option Nat)
  | answered (response : WorkerWebhookResponse)
  deriving DecidableEq

/-- Where a request stands. -/
inductive WebhookPhase where
  | absent
  /-- It awaits the end of its call of `processBatch`. -/
  | draining (startedAt : ℚ)
  | answered
  deriving DecidableEq

/-- The flag of the handler, its requests, and the record. -/
structure WebhookServer where
  busy : Bool
  phases : ℕ → WebhookPhase
  record : List (ℕ × WebhookEvent)

def WebhookServer.initial : WebhookServer := ⟨false, fun _ => .absent, []⟩

namespace WebhookServer

def log (request : ℕ) (event : WebhookEvent) (server : WebhookServer) : WebhookServer :=
  { server with record := server.record ++ [(request, event)] }

/-- The request is answered. -/
def answer (request : ℕ) (response : WorkerWebhookResponse) (server : WebhookServer) :
    WebhookServer :=
  let server := server.log request (.answered response)
  { server with phases := Function.update server.phases request .answered }

/-- It is answered from within the `try` block, which resets the flag. -/
def finish (request : ℕ) (response : WorkerWebhookResponse) (server : WebhookServer) :
    WebhookServer :=
  { server.answer request response with busy := false }

/-- The head of the loop: the clock is read, and the next batch is started within the budget. -/
def loopHead (request : ℕ) (startedAt now : ℚ) (server : WebhookServer) : WebhookServer :=
  if now - startedAt ≥ webhookDrainBudgetMs then server.finish request .unavailable
  else
    let server := server.log request (.started (now - startedAt))
    { server with phases := Function.update server.phases request (.draining startedAt) }

end WebhookServer

/-- What a request reads up to its next await. -/
structure WebhookReadings where
  availability : WorkerWebhookAvailability
  /-- The first reading of the clock. -/
  startedAt : ℚ
  /-- The reading at the head of the loop. -/
  now : ℚ

inductive WebhookStep where
  | arrive (request : ℕ) (input : WorkerWebhookRequest) (readings : WebhookReadings)
  | settle (request : ℕ) (outcome : Option Nat) (readings : WebhookReadings)

/-- The handler up to its first await. -/
def webhookArrives (options : WebhookOptions) (request : ℕ) (input : WorkerWebhookRequest)
    (readings : WebhookReadings) (server : WebhookServer) : WebhookServer :=
  let server := server.log request (.arrived input)
  if input.method ≠ some "POST" then server.answer request .methodNotAllowed
  else if !hasValidBearerToken options input.authorization then server.answer request .unauthorized
  else
    let server := server.log request (.read readings.availability)
    if server.busy || readings.availability ≠ .ready then server.answer request .unavailable
    else { server with busy := true }.loopHead request readings.startedAt readings.now

/-- The handler from the end of a batch up to its next await. -/
def webhookSettles (request : ℕ) (startedAt : ℚ) (outcome : Option Nat)
    (readings : WebhookReadings) (server : WebhookServer) : WebhookServer :=
  let server := server.log request (.ended outcome)
  match outcome with
  | none => server.finish request .unavailable
  | some 0 => server.finish request .ok
  | some (_ + 1) =>
    let server := server.log request (.read readings.availability)
    if readings.availability ≠ .ready then server.finish request .unavailable
    else server.loopHead request startedAt readings.now

/-- A request arrives once, and only a call of `processBatch` that is in flight can end. -/
def webhookNext (options : WebhookOptions) (server : WebhookServer) (step : WebhookStep) :
    WebhookServer :=
  match step with
  | .arrive request input readings =>
    if server.phases request = .absent then webhookArrives options request input readings server
    else server
  | .settle request outcome readings =>
    match server.phases request with
    | .draining startedAt => webhookSettles request startedAt outcome readings server
    | .absent | .answered => server

def webhookMachine (options : WebhookOptions) : Machine WebhookServer WebhookStep Unit where
  step server step := (webhookNext options server step, ())

end InboxServer
