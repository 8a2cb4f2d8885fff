import InboxServer.Api.Backend
import InboxServer.Api.Postgres.Readiness
import InboxServer.Infra.Prog

/-!
# The routes of a replay

`POST /api/operations/replays/execute` of `apps/api/src/app.ts`, on PostgreSQL: a dry run, a plan
that is compared with the submitted one, and the replay. Each is a call of a service, one transaction
or one query.
-/

namespace InboxServer

open Infra
open Postgres (ReplayPlan)

/-- The body of `replays/execute`. -/
structure ReplayExecute where
  idempotencyKey : String
  jobId : String
  planHash : String

/-- A call of a service, made by the route. -/
inductive RouteCall where
  | replayDeadLetter (jobId : String) (input : ReplayInput)
  | createReplayPlan (idempotencyKey jobId : String) (validation : ReplayReply)

abbrev RouteCall.Reply : RouteCall → Type
  | .replayDeadLetter .. => Except ErrorText ReplayReply
  | .createReplayPlan .. => ReplayPlan

def serveRoute (env : Env) (now : Instant) (db : Db) : (c : RouteCall) → Db × c.Reply
  | .replayDeadLetter jobId input => transact db (Postgres.replayDeadLetter env now jobId input db)
  | .createReplayPlan idempotencyKey jobId validation =>
    (db, Postgres.createReplayPlan env idempotencyKey jobId validation db)

/-- The answer of `replays/execute`. -/
inductive ExecuteReply where
  | conflict (detail : String)
  | executed (result : ReplayReply) (operationId planHash : String)
  deriving DecidableEq

abbrev ExecuteProgram := Prog RouteCall RouteCall.Reply (Except ErrorText ExecuteReply)

/-- The answer to the replay. -/
def answerReplay (body : ReplayExecute) : Except ErrorText ReplayReply → ExecuteProgram
  | .error text => .ret (.error text)
  | .ok result => .ret (.ok (.executed result body.idempotencyKey body.planHash))

/-- The route, once the plan is made. -/
def executePlan (body : ReplayExecute) (currentPlan : ReplayPlan) : ExecuteProgram :=
  if currentPlan.planHash ≠ body.planHash then .ret (.ok (.conflict "stale_plan"))
  else if !currentPlan.validation.replayable then
    .ret (.ok (.conflict currentPlan.validation.reason))
  else
    .call (.replayDeadLetter body.jobId ⟨false, body.idempotencyKey⟩) (answerReplay body)

/-- The route, once the dry run has answered. -/
def planReplay (body : ReplayExecute) : Except ErrorText ReplayReply → ExecuteProgram
  | .error text => .ret (.error text)
  | .ok validation =>
    .call (.createReplayPlan body.idempotencyKey body.jobId validation) (executePlan body)

/-- `POST /api/operations/replays/execute` -/
def executeReplay (body : ReplayExecute) : ExecuteProgram :=
  .call (.replayDeadLetter body.jobId ⟨true, body.idempotencyKey⟩) (planReplay body)

end InboxServer
