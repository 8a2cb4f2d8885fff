import InboxServer.Domain.Json
import InboxServer.Infra.Trace

/-!
# The text consumer of the Python worker

One pass of the loop of `consume` (`workers/consumer.py`) over the items of the text queue, with the
processor that `_make_process_text` (`workers/runner.py`) builds for it. An item is one dictionary
object throughout a pass, so each part returns the item as it leaves it. The sleeps and the logs are
left out.
-/

namespace InboxServer.TextConsumer

open Infra

/-- An item of the text queue. A key that is absent is `none`; nothing here reads the other keys. -/
structure TextItem where
  content : Option String
  tags : Option (List String)
  retry : Option Int
  others : Fields

inductive DispatchOutcome where
  | ok | quota | fail
  deriving DecidableEq

/-- `item.get("content", "")` -/
def TextItem.text (item : TextItem) : String := item.content.getD ""

/-- `not item.get("tags")` -/
def TextItem.untagged (item : TextItem) : Bool :=
  match item.tags with
  | none | some [] => true
  | some (_ :: _) => false

structure ConsumerEnv where
  /-- `hashlib.md5(text.encode()).hexdigest()` -/
  md5 : String → String
  /-- `glm_api_key` -/
  llmKey : String
  /-- `limits.window_count > 0` -/
  windowed : Bool
  dailyLimit : Option Int

/-- `fingerprint(item, ItemKind.TEXT)` -/
def fingerprint (env : ConsumerEnv) (item : TextItem) : String := env.md5 item.text

/-! ## Calls -/

inductive ConsumerCall where
  | dailyCount
  /-- `none` for an empty dictionary too, which `not item` skips -/
  | dequeue
  | isDone (fp : String)
  | tokenAcquire
  | generateTags (content : String)
  | dispatch (content : String)
  | markDone (fp : String)
  | dailyIncr
  | requeue (item : TextItem)
  | moveToDlq (item : TextItem)

/-- Everything but the GLM request may raise; that one is caught in `generate_smart_tags`. -/
@[reducible] def ConsumerCall.Answer : ConsumerCall → Type
  | .dailyCount => Except Unit Int
  | .dequeue => Except Unit (Option TextItem)
  | .isDone _ | .tokenAcquire => Except Unit Bool
  | .generateTags _ => List String
  | .dispatch _ => Except Unit DispatchOutcome
  | .markDone _ | .dailyIncr | .requeue _ | .moveToDlq _ => Except Unit Unit

abbrev ConsumerEvent := Event ConsumerCall ConsumerCall.Answer

abbrev ConsumerProg := Prog ConsumerCall ConsumerCall.Answer

/-! ## Failures -/

inductive RetryAction where
  | requeue | moveToDlq
  deriving DecidableEq

structure RetryDecision where
  action : RetryAction
  retry : Int
  deriving DecidableEq

def maxRetry : Int := 3

def decideOnFailure (currentRetry : Int) : RetryDecision :=
  let newRetry := currentRetry + 1
  if newRetry ≥ maxRetry then ⟨.moveToDlq, newRetry⟩ else ⟨.requeue, newRetry⟩

/-- `_handle_fail`, with the item after it, and whether it raises. -/
def handleFail (item : TextItem) : ConsumerProg (TextItem × Except Unit Unit) :=
  let d := decideOnFailure (item.retry.getD 0)
  let item := { item with retry := some d.retry }
  match d.action with
  | .moveToDlq => .call (.moveToDlq item) fun answer => .ret (item, answer)
  | .requeue => .call (.requeue item) fun answer => .ret (item, answer)

/-! ## The processor -/

/-- `fmt_flomo_tags` -/
def fmtFlomoTags (tags : List String) : String := " ".intercalate (tags.map fun tag => "#" ++ tag)

/-- `generate_smart_tags`, which does not ask for tags without a key or a text. -/
def generateSmartTags (env : ConsumerEnv) (content : String) : ConsumerProg (List String) :=
  if env.llmKey = "" || content = "" then .ret [] else .call (.generateTags content) .ret

/-- `flomo.dispatch(item)`, where `item["content"]` may raise a `KeyError`. -/
def dispatch (item : TextItem) : ConsumerProg (TextItem × Except Unit DispatchOutcome) :=
  match item.content with
  | none => .ret (item, .error ())
  | some content => .call (.dispatch content) fun outcome => .ret (item, outcome)

/-- The `process` of `_make_process_text` -/
def processText (env : ConsumerEnv) (item : TextItem) :
    ConsumerProg (TextItem × Except Unit DispatchOutcome) :=
  let content := item.text
  if item.untagged then
    (generateSmartTags env content).bind fun
      | [] => dispatch item
      | tags => dispatch { item with content := some (fmtFlomoTags tags ++ " " ++ content) }
  else dispatch item

/-! ## One pass -/

/-- The `try` of the loop after `process_fn`, but for what its `except` does. -/
def settle (fp : String) (item : TextItem) :
    Except Unit DispatchOutcome → ConsumerProg (TextItem × Except Unit Unit)
  | .error () => .ret (item, .error ())
  | .ok .ok => .call (.markDone fp) fun
    | .error () => .ret (item, .error ())
    | .ok () => .call .dailyIncr fun answer => .ret (item, answer)
  | .ok .quota => .call (.requeue item) fun answer => .ret (item, answer)
  | .ok .fail => handleFail item

/-- `process_fn` and what its outcome leads to; whatever raises in it counts as a failure. -/
def attempt (env : ConsumerEnv) (fp : String) (item : TextItem) : ConsumerProg (Except Unit Unit) :=
  (processText env item).bind fun (item, outcome) =>
    (settle fp item outcome).bind fun
      | (_, .ok ()) => .ret (.ok ())
      | (item, .error ()) => (handleFail item).bind fun (_, answer) => .ret answer

/-- The loop body, once it has dequeued an item. -/
def consumeItem (env : ConsumerEnv) (item : TextItem) : ConsumerProg (Except Unit Unit) :=
  let fp := fingerprint env item
  .call (.isDone fp) fun
    | .error () => .ret (.error ())
    | .ok true => .ret (.ok ())
    | .ok false =>
      if env.windowed then
        .call .tokenAcquire fun
          | .error () => .ret (.error ())
          | .ok false => .call (.requeue item) .ret
          | .ok true => attempt env fp item
      else attempt env fp item

/-- The loop body: nothing is taken from the queue on a day whose limit is reached. -/
def consumePass (env : ConsumerEnv) : ConsumerProg (Except Unit Unit) :=
  let take : ConsumerProg (Except Unit Unit) := .call .dequeue fun
    | .error () => .ret (.error ())
    | .ok none => .ret (.ok ())
    | .ok (some item) => consumeItem env item
  match env.dailyLimit with
  | none => take
  | some limit => .call .dailyCount fun
    | .error () => .ret (.error ())
    | .ok count => if count ≥ limit then .ret (.ok ()) else take

end InboxServer.TextConsumer
