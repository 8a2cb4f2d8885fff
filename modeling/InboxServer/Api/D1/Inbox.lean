import InboxServer.Infra.Prog
import InboxServer.Api.Backend

/-!
# The queue inbox on D1

`createQueueInboxService` of `apps/api/src/queue-inbox.ts`, step by step. A pull reads the candidates
once and leases them one by one; what it hands out is what it has read.
-/

namespace InboxServer.D1

open Infra
open Postgres (InboxMessage InboxLease InboxBatch PullInput InboxSettlement releaseExpired candidates
  acknowledge retryLease)

/-! ## Statements -/

/-- A step of a call of the inbox. -/
inductive InboxStep where
  | now
  | releaseExpired (timestamp : Instant)
  | selectQueued (timestamp : Instant) (limit : Nat)
  | lease (leaseId : String) (leaseUntil timestamp : Instant) (messageId : String)
  | count
  | settle (timestamp : Instant) (settlement : InboxSettlement)
  | stage (timestamp : Instant) (messages : List InboxMessage)

/--
The answer to a step. That of a lease is the number of rows that it changed, or nothing where the
lease id is that of another row; the batches cannot fail.
-/
abbrev InboxStep.Answer : InboxStep → Type
  | now => Instant
  | selectQueued .. => List InboxRow
  | lease .. => Option Nat
  | count => Nat
  | releaseExpired _ | settle .. | stage .. => Unit

/-- `WHERE message_id = ? AND status = 'queued'` -/
def isQueued (messageId : String) (row : InboxRow) : Bool :=
  row.messageId = messageId && row.status = .queued

/-- `UPDATE worker_inbox SET status = 'leased' ...` -/
def leaseMessage (leaseId : String) (leaseUntil timestamp : Instant) (messageId : String)
    (inbox : Table InboxRow) : Table InboxRow × Option Nat :=
  match inbox.update? (isQueued messageId) (InboxRow.lease leaseId leaseUntil timestamp) with
  | none => (inbox, none)
  | some updated => (updated, some (inbox.rows.countP (isQueued messageId)))

/-- `INSERT OR IGNORE INTO worker_inbox` -/
def insertMessage (timestamp : Instant) (inbox : Table InboxRow) (message : InboxMessage) :
    Table InboxRow :=
  (inbox.insert? (InboxRow.staged message.id message.body message.timestampMs timestamp)).getD inbox

/-- A step, taken when the clock reads `now`. -/
def serveInbox (collation : Collation) (now : Instant) (inbox : Table InboxRow) :
    (s : InboxStep) → Table InboxRow × s.Answer
  | .now => (inbox, now)
  | .releaseExpired timestamp => (Postgres.releaseExpired timestamp inbox, ())
  | .selectQueued timestamp limit => (inbox, candidates collation timestamp limit inbox)
  | .lease leaseId leaseUntil timestamp messageId =>
    leaseMessage leaseId leaseUntil timestamp messageId inbox
  | .count => (inbox, inbox.rows.length)
  | .settle timestamp settlement =>
    (settlement.retries.foldl (retryLease timestamp) (settlement.acks.foldl acknowledge inbox), ())
  | .stage timestamp messages => (messages.foldl (insertMessage timestamp) inbox, ())

/-! ## Calls -/

/-- A call of the inbox service. -/
abbrev InboxProgram (α : Type) := Prog InboxStep InboxStep.Answer (Except ErrorText α)

/-- The lease that a pull reports for a row that it has read. -/
def reportLease (leaseId : String) (row : InboxRow) : InboxLease where
  attempts := row.attempts + 1
  body := row.body
  id := row.messageId
  leaseId
  timestampMs := row.timestampMs

/-- What follows a lease statement, by the number of rows that it has changed. -/
def whenLeased (claimed : Option Nat) (leased missed : InboxProgram InboxBatch) :
    InboxProgram InboxBatch :=
  match claimed with
  | none => .ret (.error duplicateKey)
  | some changes => if changes = 1 then leased else missed

/-- The loop over the candidates, each with the lease id drawn for it, and the count after it. -/
def leaseRows (timestamp leaseUntil : Instant) :
    List (InboxRow × String) → List InboxLease → InboxProgram InboxBatch
  | [], messages => .call .count fun backlogCount => .ret (.ok { backlogCount, messages })
  | (row, leaseId) :: rest, messages =>
    .call (.lease leaseId leaseUntil timestamp row.messageId) fun claimed =>
      whenLeased claimed
        (leaseRows timestamp leaseUntil rest (messages ++ [reportLease leaseId row]))
        (leaseRows timestamp leaseUntil rest messages)

/-- What follows the select of a pull. -/
def leaseSelected (leaseIds : Nat → String) (input : PullInput) (timestamp : Instant)
    (rows : List InboxRow) : InboxProgram InboxBatch :=
  leaseRows timestamp (timestamp + input.visibilityTimeoutMs)
    (rows.mapIdx fun i row => (row, leaseIds i)) []

/-- `pull(input)`; `leaseIds` are the UUIDs that it draws, in order. -/
def pull (leaseIds : Nat → String) (input : PullInput) : InboxProgram InboxBatch :=
  .call .now fun timestamp =>
    .call (.releaseExpired timestamp) fun _ =>
      .call (.selectQueued timestamp input.batchSize) fun rows =>
        leaseSelected leaseIds input timestamp rows

/-- `settle(settlement)` -/
def settle (settlement : InboxSettlement) : InboxProgram Unit :=
  if settlement.retries.any fun retry => retry.leaseId ∈ settlement.acks then
    .ret (.error "lease cannot be acknowledged and retried")
  else
    .call .now fun timestamp =>
      if settlement.acks.isEmpty ∧ settlement.retries.isEmpty then .ret (.ok ())
      else .call (.settle timestamp settlement) fun _ => .ret (.ok ())

/-- `stage(messages)` -/
def stage (messages : List InboxMessage) : InboxProgram Unit :=
  if messages.isEmpty then .ret (.ok ())
  else .call .now fun timestamp => .call (.stage timestamp messages) fun _ => .ret (.ok ())

/-- The program of a call. -/
def inboxProgram (leaseIds : Nat → String) :
    InboxCall → Prog InboxStep InboxStep.Answer InboxReply
  | .stage messages => (stage messages).bind fun reply => .ret (.stage reply)
  | .pull input => (pull leaseIds input).bind fun reply => .ret (.pull reply)
  | .settle settlement => (settle settlement).bind fun reply => .ret (.settle reply)

end InboxServer.D1
