import InboxServer.Api.Env

/-!
# Effects and rate limits on PostgreSQL

`apps/api/src/control-plane-postgres-effects.ts`. Each call is one transaction on its own table.
-/

namespace InboxServer.Postgres

open Infra

/-! ## Effects -/

/-- What a claim answers where a row is there; `none` is to claim it again. -/
def refuseEffect (now : Instant) (existing : EffectRow) : Option ClaimEffectReply :=
  match existing.status with
  | .done => some .done
  | .uncertain => some .uncertain
  | .processing =>
    if isStale existing.updatedAt now then none else some (.busy (existing.updatedAt + 10 * 60000))
  | .failed => none

/-- `claimEffect(input)` -/
def claimEffect (now : Instant) (input : ClaimEffectInput) (effects : Table EffectRow) :
    Except ErrorText (ClaimEffectReply × Table EffectRow) :=
  match effects.insert? (EffectRow.claimed input now) with
  | some effects => .ok (.claimed 1, effects)
  | none =>
    match effects.lookup EffectRow.effectKey input.effectKey with
    | none => .error "effect claim row disappeared"
    | some existing =>
      match refuseEffect now existing with
      | some reply => .ok (reply, effects)
      | none =>
        .ok (.claimed (existing.attempts + 1),
          effects.update (fun row => row.effectKey = input.effectKey) (EffectRow.reclaimNext now))

/-- `finishEffect(effectKey, input)`: the row, if there is one, takes the result. -/
def finishEffect (now : Instant) (effectKey : String) (input : EffectResult)
    (effects : Table EffectRow) : Table EffectRow :=
  effects.update (fun row => row.effectKey = effectKey) (EffectRow.finish input now now)

/-! ## Rate limits -/

inductive RateLimitReply where
  | allowed (count : Nat)
  | refused (count : Nat) (retryAt : Instant)
  deriving DecidableEq

inductive RateLimitBatchReply where
  | allowed (counts : Entries Nat)
  | refused (counts : Entries Nat) (retryAt : Instant)
  deriving DecidableEq

def RateLimitBatchReply.isAllowed : RateLimitBatchReply → Bool
  | .allowed _ => true
  | .refused .. => false

/-- `consumeRateLimit(input)` -/
def consumeRateLimit (now : Instant) (input : RateLimitInput) (limits : Table RateLimitRow) :
    Except ErrorText (RateLimitReply × Table RateLimitRow) :=
  let expiresAt := now + input.windowSeconds * 1000
  let fresh : RateLimitRow :=
    { scope := input.scope, bucketKey := input.bucketKey, count := 1, expiresAt, updatedAt := now }
  let met (row : RateLimitRow) : Bool := row.scope = input.scope && row.bucketKey = input.bucketKey
  match limits.insert? fresh with
  | some limits => .ok (.allowed 1, limits)
  | none =>
    match limits.rows.find? met with
    | none => .error "rate limit row disappeared"
    | some current =>
      if current.expiresAt ≤ now then
        .ok (.allowed 1, limits.update met (RateLimitRow.restart expiresAt now))
      else if current.count ≥ input.limit then
        .ok (.refused current.count current.expiresAt, limits)
      else
        .ok (.allowed (current.count + 1), limits.update met (RateLimitRow.increment now))

/-- `[...new Set(scopes)].sort().join("|")` -/
def batchScope (inputs : List RateLimitInput) : String :=
  "|".intercalate
    ((inputs.map RateLimitInput.scope).dedup.insertionSort fun a b => utf16Units a ≤ utf16Units b)

example : batchScope [⟨"7", 2, "article:window", 60⟩, ⟨"d", 9, "article:daily", 86400⟩] =
    "article:daily|article:window" := by decide

/-- `consumeRateLimits(inputs)` -/
def consumeRateLimits (now : Instant) (inputs : List RateLimitInput)
    (batches : Table RateLimitBatchRow) :
    Except ErrorText (RateLimitBatchReply × Table RateLimitBatchRow) :=
  if inputs.isEmpty then .ok (.allowed [], batches)
  else
    let scope := batchScope inputs
    let row := batches.lookup RateLimitBatchRow.scope scope
    let states := (row.map RateLimitBatchRow.state).getD []
    match decideRateLimitBatch inputs states now with
    | .rejected counts _ retryAt => .ok (.refused counts retryAt, batches)
    | .allowed counts nextStates =>
      match row with
      | some _ =>
        .ok (.allowed counts,
          batches.update (fun r => r.scope = scope) (RateLimitBatchRow.setState nextStates now))
      | none =>
        match batches.insert? { scope, state := nextStates, version := 1, updatedAt := now } with
        | none => .error "rate limit batch contention"
        | some batches => .ok (.allowed counts, batches)

end InboxServer.Postgres
