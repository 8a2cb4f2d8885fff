import InboxServer.Domain.JobFailure

/-!
# Decisions about jobs and quotas

`apps/api/src/job-retry-policy.ts`. An instant is its number of milliseconds since the epoch,
within the range of `Date`; on that range the ISO texts that the tables hold sort as the instants
do. A date that a client sent is kept as what `Date.parse` makes of it.
-/

namespace InboxServer

/-- Milliseconds since the epoch. -/
abbrev Instant := Int

/-- A date in a request, as `Date.parse` reads it; `none` where that is `NaN`. -/
abbrev DateText := Option Instant

inductive JobStatus where
  | processing | deferred | done | failed | dead | uncertain
  deriving DecidableEq

/-- `status === "done" || status === "dead" || status === "uncertain"` -/
def JobStatus.isTerminal : JobStatus → Bool
  | .done | .dead | .uncertain => true
  | .processing | .deferred | .failed => false

/-! ## Job transitions -/

/-- `Math.ceil(ms / 1_000)` -/
def ceilSeconds (ms : Int) : Int := -(-ms / 1000)

/-- The seconds to wait until `retryAt`, between 1 and `maximumSeconds`; `none` is `NaN`. -/
def calculateRetryDelaySeconds (retryAt : DateText) (now : Instant) (maximumSeconds : Int := 300) :
    Option Int :=
  retryAt.map fun date => max 1 (min maximumSeconds (ceilSeconds (date - now)))

structure JobState where
  failureAttempts : Nat
  status : JobStatus
  deriving DecidableEq

inductive JobOutcome where
  | deferred
  | failed (errorClass : JobErrorClass)
  | done
  | uncertain
  deriving DecidableEq

def decideJobTransition (current : JobState) : JobOutcome → JobState
  | .deferred => { failureAttempts := current.failureAttempts, status := .deferred }
  | .done => { failureAttempts := current.failureAttempts, status := .done }
  | .uncertain => { failureAttempts := current.failureAttempts, status := .uncertain }
  | .failed errorClass =>
    let failureAttempts := current.failureAttempts + 1
    { failureAttempts
      status := if errorClass = .permanent ∨ failureAttempts ≥ 3 then .dead else .failed }

/-- `30 * 2 ** (attempts - 1)` seconds, at most five minutes. -/
def failureDelaySeconds (failureAttempts : Nat) : Nat := min 300 (30 * 2 ^ (failureAttempts - 1))

/-! ## Batches of rate limits -/

structure RateLimitInput where
  bucketKey : String
  limit : Nat
  scope : String
  windowSeconds : Nat
  deriving DecidableEq

structure RateLimitState where
  bucketKey : String
  count : Nat
  expiresAt : Instant
  scope : String
  deriving DecidableEq

inductive RateLimitBatchDecision where
  | rejected (counts : Entries Nat) (nextStates : List RateLimitState) (retryAt : Instant)
  | allowed (counts : Entries Nat) (nextStates : List RateLimitState)
  deriving DecidableEq

/-- `currentByKey.get(key)`: a `Map` built from a list keeps the last of the entries with a key. -/
def findState (states : List RateLimitState) (input : RateLimitInput) : Option RateLimitState :=
  states.reverse.find? fun state =>
    joinNul state.scope state.bucketKey = joinNul input.scope input.bucketKey

/-- The count of a state that has not expired, else 0. -/
def liveCount (existing : Option RateLimitState) (now : Instant) : Nat :=
  match existing with
  | some state => if state.expiresAt > now then state.count else 0
  | none => 0

/-- The state with one use more; its expiry is measured from the first use. -/
def nextState (input : RateLimitInput) (existing : Option RateLimitState) (now : Instant) :
    RateLimitState where
  bucketKey := input.bucketKey
  count := liveCount existing now + 1
  expiresAt :=
    match existing with
    | some state =>
      if state.expiresAt > now then state.expiresAt else now + input.windowSeconds * 1000
    | none => now + input.windowSeconds * 1000
  scope := input.scope

/-- The expiry of the state that refuses the input. -/
def rejectedUntil (input : RateLimitInput) (existing : Option RateLimitState) (now : Instant) :
    Option Instant :=
  match existing with
  | some state => if liveCount existing now ≥ input.limit then some state.expiresAt else none
  | none => none

/-- `Object.fromEntries`, and the assignments `counts[scope] = count` of a loop. -/
def countEntries (counts : List (String × Nat)) : Entries Nat :=
  counts.foldl (fun entries c => entries.set c.1 c.2) []

def decideRateLimitBatch (inputs : List RateLimitInput) (currentStates : List RateLimitState)
    (now : Instant) : RateLimitBatchDecision :=
  let existing := findState currentStates
  let nextStates := inputs.map fun input => nextState input (existing input) now
  match (inputs.filterMap fun input => rejectedUntil input (existing input) now).max? with
  | some retryAt =>
    .rejected (countEntries (inputs.map fun input => (input.scope, liveCount (existing input) now)))
      currentStates retryAt
  | none =>
    .allowed (countEntries (nextStates.map fun state => (state.scope, state.count))) nextStates

end InboxServer
