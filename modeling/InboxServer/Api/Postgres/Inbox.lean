import InboxServer.Api.Env

/-!
# The queue inbox on PostgreSQL

`apps/api/src/queue-inbox-postgres.ts`. `FOR UPDATE SKIP LOCKED` skips nothing here, since each
call is one atomic step.
-/

namespace InboxServer

/-- The order of a text column: `ORDER BY` sorts by it, and it is total. -/
structure Collation where
  le : String → String → Bool
  total : ∀ a b, le a b = true ∨ le b a = true
  trans : ∀ a b c, le a b = true → le b c = true → le a c = true
  antisymm : ∀ a b, le a b = true → le b a = true → a = b

namespace Postgres

open Infra

/-! ## Messages -/

structure InboxMessage where
  id : String
  body : Json
  timestampMs : Int
  deriving DecidableEq

structure InboxLease where
  attempts : Nat
  body : Json
  id : String
  leaseId : String
  timestampMs : Int
  deriving DecidableEq

structure InboxBatch where
  backlogCount : Nat
  messages : List InboxLease
  deriving DecidableEq

structure PullInput where
  batchSize : Nat
  visibilityTimeoutMs : Nat
  deriving DecidableEq

structure InboxRetry where
  delaySeconds : Option Nat
  leaseId : String
  deriving DecidableEq

structure InboxSettlement where
  acks : List String
  retries : List InboxRetry
  deriving DecidableEq

/-! ## `stage` -/

/-- The message is inserted where no row has its id. -/
def stageMessage (now : Instant) (inbox : Table InboxRow) (message : InboxMessage) :
    Except ErrorText (Table InboxRow) :=
  match inbox.insertUnless? (fun row => row.messageId = message.id)
      (InboxRow.staged message.id message.body message.timestampMs now) with
  | none => .error duplicateKey
  | some inbox => .ok inbox

/-- `stage(messages)` -/
def stage (now : Instant) (messages : List InboxMessage) (inbox : Table InboxRow) :
    Except ErrorText (Table InboxRow) :=
  messages.foldlM (stageMessage now) inbox

/-! ## `pull` -/

/-- `status = 'leased' AND lease_until <= now` -/
def isExpired (now : Instant) (row : InboxRow) : Bool :=
  row.status = .leased && row.leaseUntil.any (· ≤ now)

/-- Every expired lease goes back to the queue. -/
def releaseExpired (now : Instant) (inbox : Table InboxRow) : Table InboxRow :=
  inbox.update (isExpired now) (InboxRow.release now now)

/-- `status = 'queued' AND available_at <= now` -/
def isAvailable (now : Instant) (row : InboxRow) : Bool :=
  row.status = .queued && row.availableAt ≤ now

/-- `ORDER BY created_at, message_id` -/
def inOrder (collation : Collation) (a b : InboxRow) : Prop :=
  a.createdAt < b.createdAt ∨
    (a.createdAt = b.createdAt ∧ collation.le a.messageId b.messageId = true)

instance (collation : Collation) : DecidableRel (inOrder collation) := fun _ _ =>
  inferInstanceAs (Decidable (_ ∨ _))

def candidates (collation : Collation) (now : Instant) (batchSize : Nat) (inbox : Table InboxRow) :
    List InboxRow :=
  ((inbox.rows.filter (isAvailable now)).insertionSort (inOrder collation)).take batchSize

def leaseOf (leaseId : String) (row : InboxRow) : InboxLease where
  attempts := row.attempts
  body := row.body
  id := row.messageId
  leaseId
  timestampMs := row.timestampMs

/-- The loop over the candidates, each with the lease id drawn for it. -/
def leaseCandidates (now leaseUntil : Instant) :
    List (InboxRow × String) → Table InboxRow → Except ErrorText (List InboxLease × Table InboxRow)
  | [], inbox => .ok ([], inbox)
  | (candidate, leaseId) :: rest, inbox =>
    let met (row : InboxRow) : Bool :=
      row.messageId = candidate.messageId && row.status = .queued
    match inbox.update? met (InboxRow.lease leaseId leaseUntil now) with
    | none => .error duplicateKey
    | some updated =>
      match leaseCandidates now leaseUntil rest updated with
      | .error text => .error text
      | .ok (messages, final) =>
        match inbox.rows.find? met with
        | none => .ok (messages, final)
        | some row => .ok (leaseOf leaseId (row.lease leaseId leaseUntil now) :: messages, final)

/-- `pull(input)`; `leaseIds` are the UUIDs that it draws, in order. -/
def pull (collation : Collation) (now : Instant) (leaseIds : Nat → String) (input : PullInput)
    (inbox : Table InboxRow) : Except ErrorText (InboxBatch × Table InboxRow) :=
  let released := releaseExpired now inbox
  let chosen := candidates collation now input.batchSize released
  match leaseCandidates now (now + input.visibilityTimeoutMs)
      (chosen.mapIdx fun i row => (row, leaseIds i)) released with
  | .error text => .error text
  | .ok (messages, final) => .ok ({ backlogCount := final.rows.length, messages }, final)

/-! ## `settle` -/

/-- `lease_id = $1 AND status = 'leased'` -/
def holdsLease (leaseId : String) (row : InboxRow) : Bool :=
  row.leaseId = some leaseId && row.status = .leased

def acknowledge (inbox : Table InboxRow) (leaseId : String) : Table InboxRow :=
  inbox.delete (holdsLease leaseId)

def retryLease (now : Instant) (inbox : Table InboxRow) (retry : InboxRetry) : Table InboxRow :=
  let availableAt := now + (retry.delaySeconds.getD 0) * 1000
  inbox.update (holdsLease retry.leaseId) (InboxRow.release availableAt now)

/-- `settle(settlement)`; without acks and retries the loops do nothing, as the early return. -/
def settle (now : Instant) (settlement : InboxSettlement) (inbox : Table InboxRow) :
    Except ErrorText (Table InboxRow) :=
  if settlement.retries.any fun retry => retry.leaseId ∈ settlement.acks then
    .error "lease cannot be acknowledged and retried"
  else .ok (settlement.retries.foldl (retryLease now) (settlement.acks.foldl acknowledge inbox))

end Postgres

end InboxServer
