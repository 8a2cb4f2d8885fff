import InboxServer.Api.Env
import InboxServer.Infra.Trace

/-!
# The queue producer

`apps/api/src/queue-producer.ts`, as a program whose one call is `queue.sendBatch`.
-/

namespace InboxServer

open Infra

/-- `queue.sendBatch(batch)`, by the bodies of its messages. -/
structure SendBatch where
  batch : List QueueJob
  deriving DecidableEq

abbrev SendBatch.Answer (_ : SendBatch) : Type := Except ErrorText Unit

abbrev Producing := Prog SendBatch SendBatch.Answer (Except ErrorText Unit)

abbrev SendEvent := Event SendBatch SendBatch.Answer

/-- `encoder.encode(JSON.stringify(body)).byteLength + 100` -/
def messageBytes (body : QueueJob) : Nat := body.stringify.utf8ByteSize + 100

/-- One step of `inputs.map(...)`. -/
def queueMessage (zod : Zod) (input : Json) : Except ErrorText QueueJob :=
  match parseQueueJob zod input with
  | none => .error (zod.issueText input)
  | some body =>
    if messageBytes body > 128000 then .error "Queue message exceeds 128 KB" else .ok body

/-- The loop over the messages; `batch` and `batchBytes` are its variables. -/
def sendMessages (batch : List QueueJob) (batchBytes : Nat) : List QueueJob → Producing
  | [] => if batch.length > 0 then .call ⟨batch⟩ .ret else .ret (.ok ())
  | body :: messages =>
    if batch.length = 100 || batchBytes + messageBytes body > 256000 then
      .call ⟨batch⟩ fun
        | .error e => .ret (.error e)
        | .ok () => sendMessages [body] (messageBytes body) messages
    else sendMessages (batch ++ [body]) (batchBytes + messageBytes body) messages

/-- `sendBatch(inputs)` -/
def queueSendBatch (zod : Zod) (inputs : List Json) : Producing :=
  match inputs.mapM (queueMessage zod) with
  | .error e => .ret (.error e)
  | .ok messages => sendMessages [] 0 messages

end InboxServer
