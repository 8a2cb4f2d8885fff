import InboxServer.Infra.Expand
import InboxServer.Worker.CollectorParsers
import InboxServer.Worker.JobHandler

/-!
# Collectors of Telegram and Dida

`collectTelegram` and `collectDida` of `apps/worker/src/http-collectors.ts`, as programs, and the
handler of a collection job with them in place (`collectorRun`).
-/

namespace InboxServer

open Infra

/-- An entry of `channels.sources`. -/
structure SourceEntry where
  enabled : Bool
  config : Fields

/-- What a collector is given, and what it takes from the platform. -/
structure CollectorOptions where
  sources : Entries SourceEntry
  hasAttachmentStore : Bool
  /-- The staging directory, normalized. -/
  stagingDir : String
  /-- Whether `new URL(value)` accepts a text, with the protocol `http:` or `https:`. -/
  isHttpUrl : String → Bool
  /-- `[\p{L}\p{N}]` -/
  isLetterOrNumber : Char → Bool

/-! ## Calls -/

inductive CollectorCall where
  /-- A call of the handler that is no collector's. -/
  | worker (call : HandlerCall)
  | getState (key : String)
  | getUpdates (token : String) (offset : Int)
  /-- The order in which as many promises of one `Promise.all` get their turns. -/
  | arrange (count : Nat)
  | getFile (token fileId : String)
  | downloadFile (token filePath : String)
  | upload (objectKey : String) (bytes : Bytes)
  | writeFile (localPath : String) (bytes : Bytes)
  | getInboxTasks (token : String)
  | deleteTask (token : String) (task : DeleteTask)
  deriving DecidableEq

/-- A response: its status, and its body where it is JSON. -/
abbrev JsonResponse := Nat × Option Json

@[reducible] def CollectorCall.Answer : CollectorCall → Type
  | .worker call => call.Answer
  | .getState _ => Except Thrown (Option Json)
  | .arrange count => { order : List Nat // order.Perm (List.range count) }
  | .getUpdates .. | .getFile .. | .getInboxTasks _ => Except Thrown JsonResponse
  | .downloadFile .. => Except Thrown (Nat × Bytes)
  | .upload .. | .writeFile .. => Except Thrown Unit
  | .deleteTask .. => Except Thrown Nat

/-- A part of a collector that ends with a value, or throws. -/
abbrev CollectorProg (α : Type) := Prog CollectorCall CollectorCall.Answer (Except Thrown α)

/-- `throw new Error(message)` -/
def thrownError {α : Type} (message : String) : Except Thrown α := .error (.error false message)

/-! ## Small functions -/

/-- `readOptionalString(record, key)` -/
def readOptionalString (record : Fields) (key : String) : Option String :=
  match record.lookup key with
  | some (.str s) => if s = "" then none else some s
  | _ => none

/-- `sourceConfig(dependencies, source)` -/
def sourceConfig (options : CollectorOptions) (source : String) : Except Thrown Fields :=
  match options.sources.lookup source with
  | some entry =>
    if entry.enabled then .ok entry.config else thrownError ("source is disabled: " ++ source)
  | none => thrownError ("source is disabled: " ++ source)

/-- `required(config, key, source)` -/
def required (config : Fields) (key source : String) : Except Thrown String :=
  match readOptionalString config key with
  | some value => .ok value
  | none => thrownError (source ++ " requires " ++ key)

/-- The token of a source. -/
def sourceToken (options : CollectorOptions) (source key : String) : Except Thrown String :=
  match sourceConfig options source with
  | .ok config => required config key source
  | .error e => .error e

/-- `fingerprint(value)` -/
def fingerprint (env : Env) (value : String) : String :=
  String.ofList ((env.sha256Hex value).toList.take 16)

/-- `readStringArray(value, key)` -/
def readStringArray (value : Option Json) (key : String) : List String :=
  match (Json.record value).lookup key with
  | some (.arr items) => items.filterMap parseString
  | _ => []

/-- `readNumber(value, key)`, of an integer. -/
def readNumber (value : Option Json) (key : String) : Option Int :=
  integerValue ((Json.record value).lookup key)

/-- `basename(value)` -/
def basename (value : String) : List Char :=
  ((value.toList.reverse.dropWhile (· = '/')).takeWhile (· ≠ '/')).reverse

/-- `sanitizeFilename(value)`; `none` is the error that it throws. -/
def sanitizeFilename (options : CollectorOptions) (value : String) : Option String :=
  let safe := (basename value).map fun c =>
    if options.isLetterOrNumber c || c ∈ ['.', '_', ' ', '-'] then c else '_'
  if safe = [] || safe = ['.'] || safe = ['.', '.'] then none else some (String.ofList safe)

/-- `response.ok` -/
def isOk (status : Nat) : Bool := 200 ≤ status && status ≤ 299

/-- `requestJson(fetcher, input, init)`, of the response. -/
def jsonReply : Except Thrown JsonResponse → Except Thrown Json
  | .error e => .error e
  | .ok (status, body) =>
    if !isOk status then thrownError ("collector request failed: " ++ toString status)
    else
      match body with
      | some json => .ok json
      | none => thrownError "collector response is invalid JSON"

/-- The bytes of a file, of the response. -/
def bytesReply : Except Thrown (Nat × Bytes) → Except Thrown Bytes
  | .error e => .error e
  | .ok (status, bytes) =>
    if !isOk status then thrownError ("Telegram file request failed: " ++ toString status)
    else .ok bytes

/-! ## Telegram -/

/-- The path of a file, of the answer of `getFile`. -/
def filePathOf (fileResult : Json) : Option String :=
  readOptionalString (Json.record ((Json.record (some fileResult)).lookup "result")) "file_path"

/-- `join(stagingDir, remoteName)` -/
def stagedPath (options : CollectorOptions) (remoteName : String) : String :=
  options.stagingDir ++ "/" ++ remoteName

/-- Where the bytes of a file go, and its item. -/
def storeTelegramFile (options : CollectorOptions) (remoteName : String) (bytes : Bytes) :
    CollectorProg DispatchItem :=
  if options.hasAttachmentStore then
    .call (.worker .randomUuid) fun uuid => .call (.upload ("telegram/" ++ uuid) bytes) fun
      | .error e => .ret (.error e)
      | .ok () => .ret (.ok (.file none (some ("telegram/" ++ uuid)) remoteName))
  else
    .call (.writeFile (stagedPath options remoteName) bytes) fun
      | .error e => .ret (.error e)
      | .ok () => .ret (.ok (.file (some (stagedPath options remoteName)) none remoteName))

/-- The function that `parsed.files.map` is given. -/
def fetchTelegramFile (options : CollectorOptions) (token : String) (file : TelegramFile) :
    CollectorProg DispatchItem :=
  .call (.getFile token file.fileId) fun reply =>
    match jsonReply reply with
    | .error e => .ret (.error e)
    | .ok fileResult =>
      match filePathOf fileResult with
      | none => .ret (thrownError "Telegram getFile response is invalid")
      | some filePath => .call (.downloadFile token filePath) fun reply =>
        match bytesReply reply with
        | .error e => .ret (.error e)
        | .ok bytes =>
          match sanitizeFilename options file.remoteName with
          | none => .ret (thrownError "unsafe Telegram filename")
          | some remoteName => storeTelegramFile options remoteName bytes

/-- What the promises of a `Promise.all` have come to, by their places, the latest first. -/
abbrev Settled := List (Nat × Except Thrown DispatchItem)

/-- The promises take their turns; one that has failed does not stop the others. -/
def fetchTelegramFiles (options : CollectorOptions) (token : String) (files : List TelegramFile) :
    List Nat → Settled → Prog CollectorCall CollectorCall.Answer Settled
  | [], settled => .ret settled
  | i :: order, settled =>
    match files[i]? with
    | none => fetchTelegramFiles options token files order settled
    | some file => (fetchTelegramFile options token file) >>= fun result =>
      fetchTelegramFiles options token files order ((i, result) :: settled)

/-- A promise that has failed. -/
def rejection : Nat × Except Thrown DispatchItem → Option Thrown
  | (_, .error e) => some e
  | (_, .ok _) => none

/-- `Promise.all`: the first failure, or the items in their places. -/
def promiseAll (count : Nat) (settled : Settled) : Except Thrown (List DispatchItem) :=
  match settled.reverse.findSome? rejection with
  | some e => .error e
  | none => .ok ((List.range count).filterMap fun i =>
    match settled.lookup i with
    | some (.ok item) => some item
    | _ => none)

def telegramStateKey (env : Env) (token : String) : String :=
  "telegram:offset:" ++ fingerprint env token

/-- The result of a collection from Telegram. -/
def telegramResult (stateKey : String) (offset : Int) (parsed : TelegramParse)
    (fileItems : List DispatchItem) : CollectionResult where
  items := parsed.items ++ fileItems
  stateUpdates :=
    if parsed.offset > offset then [(stateKey, .obj [("offset", .num (toString parsed.offset))])]
    else []
  hasAfterCommit := false
  loginSession := none

/-- `collectTelegram(dependencies)` -/
def collectTelegram (env : Env) (options : CollectorOptions) : CollectorProg CollectionResult :=
  match sourceToken options "telegram" "bot_token" with
  | .error e => .ret (.error e)
  | .ok token =>
    let stateKey := telegramStateKey env token
    .call (.getState stateKey) fun
      | .error e => .ret (.error e)
      | .ok currentState =>
        let offset := (readNumber currentState "offset").getD 0
        .call (.getUpdates token (offset + 1)) fun reply =>
          match jsonReply reply with
          | .error e => .ret (.error e)
          | .ok payload =>
            let parsed := parseTelegramUpdates options.isHttpUrl payload offset
            .call (.arrange parsed.files.length) fun order =>
              fetchTelegramFiles options token parsed.files order.1 [] >>= fun settled =>
                match promiseAll parsed.files.length settled with
                | .error e => .ret (.error e)
                | .ok fileItems => .ret (.ok (telegramResult stateKey offset parsed fileItems))

/-! ## Dida -/

/-- `[...titles].sort()`, by code units. -/
def sortTexts (texts : List String) : List String :=
  texts.insertionSort fun a b => utf16Units a ≤ utf16Units b

def didaStateKey (env : Env) (token : String) : String := "dida:saved:" ++ fingerprint env token

/-- The result of a collection from Dida. -/
def didaResult (stateKey : String) (parsed : DidaParse) : CollectionResult where
  items := parsed.items
  stateUpdates :=
    [(stateKey, .obj [("savedTitles", .arr ((sortTexts parsed.savedTitles).map .str))])]
  hasAfterCommit := true
  loginSession := none

/-- The function that `collectDida` leaves as `afterCommit`. -/
def deleteTasks (token : String) : List DeleteTask → CollectorProg Unit
  | [] => .ret (.ok ())
  | task :: tasks => .call (.deleteTask token task) fun
    | .error e => .ret (.error e)
    | .ok status =>
      if !isOk status && status ≠ 404 then
        .ret (thrownError ("Dida delete request failed: " ++ toString status))
      else deleteTasks token tasks

/-- `payload.tasks`, where it is an array. -/
def taskList (payload : Json) : List Json :=
  match (Json.record (some payload)).lookup "tasks" with
  | some (.arr tasks) => tasks
  | _ => []

/-- `collectDida(dependencies)` -/
def collectDida (env : Env) (options : CollectorOptions) :
    CollectorProg (CollectionResult × CollectorProg Unit) :=
  match sourceToken options "dida" "access_token" with
  | .error e => .ret (.error e)
  | .ok token =>
    let stateKey := didaStateKey env token
    .call (.getState stateKey) fun
      | .error e => .ret (.error e)
      | .ok currentState =>
        let saved := readStringArray currentState "savedTitles"
        .call (.getInboxTasks token) fun reply =>
          match jsonReply reply with
          | .error e => .ret (.error e)
          | .ok payload =>
            let parsed := parseDidaTasks options.isHttpUrl (taskList payload) saved
            .ret (.ok (didaResult stateKey parsed, deleteTasks token parsed.deleteTasks))

/-! ## The handler with its collectors -/

/-- A call of the handler, with the collector in its place, and the `afterCommit` that is kept. -/
def collectorCall (env : Env) (options : CollectorOptions) (afterCommit : CollectorProg Unit) :
    (call : HandlerCall) →
      Prog CollectorCall CollectorCall.Answer (CollectorProg Unit × call.Answer)
  | .collect .telegram => collectTelegram env options >>= fun
    | .error e => .ret (afterCommit, .error e)
    | .ok result => .ret (afterCommit, .ok result)
  | .collect .dida => collectDida env options >>= fun
    | .error e => .ret (afterCommit, .error e)
    | .ok (result, kept) => .ret (kept, .ok result)
  | .afterCommit => afterCommit >>= fun result => .ret (afterCommit, result)
  | call => .call (.worker call) fun answer => .ret (afterCommit, answer)

/-- The handler of a collection job, down to the calls of its collector. -/
def collectorRun (env : Env) (handler : HandlerOptions) (options : CollectorOptions) (job : QueueJob)
    (shadow : Bool) (source : SourceName) : CollectorProg JobHandlerResult :=
  (collectSource env handler job shadow source).expand (collectorCall env options) (.ret (.ok ()))

end InboxServer
