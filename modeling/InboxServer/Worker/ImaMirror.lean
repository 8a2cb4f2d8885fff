import InboxServer.Infra.Trace
import InboxServer.Worker.ArticleArchive

/-!
# The IMA mirror

`createImaArticleMirror` of `apps/worker/src/ima-article-mirror.ts`, as a program. What is sent with a
request to prove who asks, and what is logged, is left out. The loops over the pages of a listing have
fuel, since nothing in them bounds the pages that they follow.
-/

namespace InboxServer.Ima

open Infra

/-! ## What the mirror is given -/

/-- An `ImaMirrorError`. -/
structure MirrorError where
  message : String
  stage : String
  reason : String
  /-- A number, by its text. -/
  providerCode : Option String
  deriving DecidableEq

/-- How a part of the mirror ends that does not return. -/
inductive Stop where
  /-- A loop has not ended yet. -/
  | outOfFuel
  | mirror (error : MirrorError)
  /-- Any other thrown value. -/
  | other
  deriving DecidableEq

structure MirrorOptions where
  enabled : Bool
  knowledgeBaseName : String
  stateDirectory : String
  hasStateStore : Bool
  /-- `webHeaders`, by what is looked at. -/
  webHeaders : Option Fields
  webKnowledgeBaseId : Option String

structure MirrorEnv where
  /-- `sourceFingerprint(sourceUrl)`; `none` when `new URL` throws. -/
  sourceFingerprint : String → Option String
  /-- `renderImaMarkdownCopy(content)` -/
  renderImaMarkdownCopy : String → String
  sha256Hex : String → String
  encodeUriComponent : String → String

structure MirrorInput where
  content : String
  filename : String
  sourceUrl : String
  deriving DecidableEq

/-- The marker of a mirror that is complete. -/
structure Marker where
  completedAt : Instant
  contentDigest : String
  knowledgeId : String
  deriving DecidableEq

/-! ## Calls -/

/-- A value that may be missing. -/
abbrev Value := Option Json

/-- A request, by what its body says. -/
inductive ImaRequest where
  | getAddableKnowledgeBaseList (cursor : Json)
  | getKnowledgeList (knowledgeBaseId : Value) (cursor : Json)
  | createFolder (webKnowledgeBaseId title : String)
  | checkRepeatedNames (knowledgeBaseId : Value) (folderId name : String)
  | createMedia (knowledgeBaseId : Value) (fileName : String) (fileSize : Nat)
  | putObject (hostname pathname content : String)
  | addKnowledge (knowledgeBaseId : Value) (folderId title : String) (mediaId cosKey : Value)
      (fileSize : Nat) (lastModifyTime : Int)
  deriving DecidableEq

/-- A response: `ok`, and the body where it is JSON. `none` when `fetcher` throws. -/
abbrev FetchReply := Option (Bool × Option Json)

inductive ImaCall where
  | fetch (request : ImaRequest)
  | now
  | getState (stateKey : String)
  | putState (stateKey : String) (marker : Marker)
  | markerExists (markerPath : String)
  | writeMarker (markerPath : String) (marker : Marker)
  /-- The variable of the closure that keeps the knowledge base. -/
  | readKnowledgeBaseId
  | writeKnowledgeBaseId (id : Value)
  deriving DecidableEq

@[reducible] def ImaCall.Answer : ImaCall → Type
  | .fetch _ => FetchReply
  | .now => Instant
  | .getState _ => Except Unit Value
  | .markerExists _ => Except Unit Bool
  | .putState .. | .writeMarker .. => Except Unit Unit
  | .readKnowledgeBaseId => Value
  | .writeKnowledgeBaseId _ => Unit

/-- A part of the mirror. -/
abbrev ImaProg (α : Type) := Prog ImaCall ImaCall.Answer (Except Stop α)

/-! ## Answers -/

/-- `new ImaMirrorError(message, stage, reason)` -/
def mirrorError (message stage reason : String) : Stop := .mirror ⟨message, stage, reason, none⟩

/-- Whether a value counts as true. -/
def truthy : Value → Bool
  | none | some .null => false
  | some (.bool b) => b
  | some (.num text) => text ≠ "0"
  | some (.str s) => s ≠ ""
  | some (.arr _) | some (.obj _) => true

/-- `value[name]`, where `value` is not null. -/
def Json.field (value : Json) (name : String) : Value := (Json.record (some value)).lookup name

/-- `payload.data ?? payload` -/
def dataOf (payload : Json) : Json :=
  match Json.field payload "data" with
  | none | some .null => payload
  | some data => data

/-- What `imaRequest` returns for a response, or throws. -/
def imaData (stage : String) : FetchReply → Except Stop Json
  | none => .error (mirrorError ("ima_" ++ stage ++ "_failed") stage "network_failed")
  | some (false, _) => .error (mirrorError ("ima_" ++ stage ++ "_failed") stage "http_failed")
  | some (true, none) | some (true, some .null) =>
    .error (mirrorError ("ima_" ++ stage ++ "_failed") stage "invalid_response")
  | some (true, some payload) =>
    match Json.field payload "code" with
    | some (.num code) =>
      if code = "0" then .ok (dataOf payload)
      else .error (.mirror ⟨"ima_" ++ stage ++ "_failed", stage, "api_rejected", some code⟩)
    | _ => .ok (dataOf payload)

/-! ## Listings -/

/-- What a page of a listing adds, and the cursor that is followed. -/
structure ListPage (α : Type) where
  found : List α
  next : Option Json

/-- The entries of a page, and its cursor: `is_end` or an empty cursor ends the listing. -/
def pageEntries (stage listKey : String) (reply : FetchReply) : Except Stop (List Json × Option Json) :=
  match imaData stage reply with
  | .error e => .error e
  | .ok page =>
    match Json.field page listKey with
    | some (.arr entries) => .ok (entries,
        if truthy (Json.field page "is_end") then none
        else (Json.field page "next_cursor").filter fun cursor => truthy (some cursor))
    | _ => .error .other

/-- A page, by what is picked of its entries; `pick` may throw. -/
def readPage {α : Type} (stage listKey : String) (pick : Json → Option (Option α))
    (reply : FetchReply) : Except Stop (ListPage α) :=
  match pageEntries stage listKey reply with
  | .error e => .error e
  | .ok (entries, next) =>
    match entries.mapM pick with
    | none => .error .other
    | some picked => .ok { found := picked.filterMap id, next }

/-- The loop over the pages of a listing. -/
def listPages {α : Type} (request : Json → ImaRequest) (read : FetchReply → Except Stop (ListPage α)) :
    Nat → Json → List α → ImaProg (List α)
  | 0, _, _ => .ret (.error .outOfFuel)
  | fuel + 1, cursor, found => .call (.fetch (request cursor)) fun reply =>
    match read reply with
    | .error e => .ret (.error e)
    | .ok page =>
      match page.next with
      | none => .ret (.ok (found ++ page.found))
      | some cursor => listPages request read fuel cursor (found ++ page.found)

/-- `item.title === month && item.media_id?.startsWith("folder_")`, and the id. -/
def pickFolder (month : String) : Json → Option (Option String)
  | .null => none
  | item =>
    if Json.field item "title" ≠ some (.str month) then some none
    else match Json.field item "media_id" with
      | none | some .null => some none
      | some (.str id) => some (if "folder_".toList.isPrefixOf id.toList then some id else none)
      | some _ => none

/-- `item.name === options.knowledgeBaseName`, and the id. -/
def pickKnowledgeBase (name : String) : Json → Option (Option Value)
  | .null => none
  | item =>
    some (if Json.field item "name" = some (.str name) then some (Json.field item "id") else none)

/-- `matches[0]`, where it is the only match. -/
def onlyMatch {α : Type} (error : Stop) : List α → Except Stop α
  | [found] => .ok found
  | _ => .error error

/-- `findUniqueKnowledgeBase(options)` -/
def findUniqueKnowledgeBase (options : MirrorOptions) (fuel : Nat) : ImaProg Value :=
  (listPages .getAddableKnowledgeBaseList
    (readPage "knowledge_base" "addable_knowledge_base_list"
      (pickKnowledgeBase options.knowledgeBaseName)) fuel (.str "") []).andThen fun found =>
    .ret (onlyMatch
      (mirrorError "ima_knowledge_base_not_unique" "knowledge_base" "knowledge_base_not_unique") found)

/-- `required(value, message)` -/
def required (value : Option String) (message : String) : Except Stop String :=
  let trimmed := trimText (value.getD "")
  if trimmed = "" then .error (mirrorError message "configuration" "configuration_missing")
  else .ok trimmed

/-- The text of a header, where there is one. -/
def headerText : Value → Option String
  | some (.str s) => some s
  | _ => none

/-- What has to be there for a folder to be created: the knowledge base, for the browser. -/
def folderTarget (options : MirrorOptions) (webHeaders : Fields) : Except Stop String :=
  match required options.webKnowledgeBaseId "ima_web_knowledge_base_missing" with
  | .error e => .error e
  | .ok webKnowledgeBaseId =>
    match ["cookie", "x-ima-cookie", "x-ima-bkn"].find? fun key =>
        trimText ((headerText (webHeaders.lookup key)).getD "") = "" with
    | some _ => .error (mirrorError "ima_web_credentials_missing" "configuration" "configuration_missing")
    | none => .ok webKnowledgeBaseId

/-- What is thrown for the answer to the creation of a folder. -/
def folderFailure : FetchReply → Option Stop
  | none => some (mirrorError "ima_folder_create_failed" "folder" "network_failed")
  | some (false, _) => some (mirrorError "ima_folder_create_failed" "folder" "http_failed")
  | some (true, none) => some (mirrorError "ima_folder_create_failed" "folder" "invalid_response")
  | some (true, some payload) =>
    if Json.field payload "code" = some (.num "0") then none
    else some (mirrorError "ima_folder_create_failed" "folder" "api_rejected")

/-- The listing of the folders of a month. -/
def listMonthFolders (knowledgeBaseId : Value) (month : String) (fuel : Nat) : ImaProg (List String) :=
  listPages (.getKnowledgeList knowledgeBaseId) (readPage "folder" "knowledge_list" (pickFolder month))
    fuel (.str "") []

/-- The folder of a month, out of those that a listing has found. -/
def uniqueFolder (found : List String) : Except Stop String :=
  onlyMatch (mirrorError "ima_month_folder_not_unique" "folder" "folder_not_unique") found

/-- The folder of the month is created, and looked for once more. -/
def createMonthFolder (options : MirrorOptions) (knowledgeBaseId : Value) (month : String) (fuel : Nat)
    (webHeaders : Fields) : ImaProg String :=
  match folderTarget options webHeaders with
  | .error e => .ret (.error e)
  | .ok webKnowledgeBaseId => .call (.fetch (.createFolder webKnowledgeBaseId month)) fun reply =>
    match folderFailure reply with
    | some e => .ret (.error e)
    | none => (listMonthFolders knowledgeBaseId month fuel).andThen fun found =>
        .ret (uniqueFolder found)

/-- `findUniqueMonthFolder(options)`, which calls itself once, without `webHeaders`. -/
def findUniqueMonthFolder (options : MirrorOptions) (knowledgeBaseId : Value) (month : String)
    (fuel : Nat) : ImaProg String :=
  (listMonthFolders knowledgeBaseId month fuel).andThen fun found =>
    match found, options.webHeaders with
    | [], some webHeaders => createMonthFolder options knowledgeBaseId month fuel webHeaders
    | found, _ => .ret (uniqueFolder found)

/-! ## The upload -/

structure ImaLocation where
  filename : String
  month : String
  deriving DecidableEq

/-- `buildImaLocation(filename)`: `/^(\d{6})\d{2}-(.+)$/` -/
def buildImaLocation (filename : String) : Except Stop ImaLocation :=
  let digits := filename.toList.take 8
  match filename.toList.drop 8 with
  | '-' :: rest =>
    if digits.length = 8 && digits.all Char.isDigit && !rest.isEmpty &&
        rest.all fun c => !isLineTerminator c then
      .ok { filename := String.ofList rest, month := String.ofList (digits.take 6) }
    else .error (mirrorError "ima_archive_filename_invalid" "folder" "invalid_filename")
  | _ => .error (mirrorError "ima_archive_filename_invalid" "folder" "invalid_filename")

/-- `repeated.results[0]?.is_repeated`, of the answer. -/
def readRepeated (reply : FetchReply) : Except Stop Bool :=
  match imaData "duplicate_check" reply with
  | .error e => .error e
  | .ok repeated =>
    let isRepeated (result : Value) := truthy (result.bind fun result => Json.field result "is_repeated")
    match Json.field repeated "results" with
    | none | some .null => .error .other
    | some (.arr results) => .ok (isRepeated results[0]?)
    | some (.obj fields) => .ok (isRepeated (fields.lookup "0"))
    | some _ => .ok false

mutual

/-- A value in a template. -/
def templateJson : Json → String
  | .null => "null"
  | .bool b => toString b
  | .num text => text
  | .str s => s
  | .arr items => ",".intercalate (templateItems items)
  | .obj _ => "[object Object]"

def templateItems : List Json → List String
  | [] => []
  | .null :: items => "" :: templateItems items
  | item :: items => templateJson item :: templateItems items

end

def templateText : Value → String
  | none => "undefined"
  | some value => templateJson value

structure CosTarget where
  hostname : String
  pathname : String

/-- Where `uploadToCos` puts the content, with a `credential`. -/
def cosTarget (env : MirrorEnv) : Value → Except Stop CosTarget
  | none | some .null => .error .other
  | some credential =>
    let hostname := templateText (Json.field credential "bucket_name") ++ ".cos." ++
      templateText (Json.field credential "region") ++ ".myqcloud.com"
    if !hostname.toList.all fun c => c.isAlphanum || c = '.' || c = '-' then
      .error (mirrorError "ima_cos_host_invalid" "cos_upload" "host_invalid")
    else
      match Json.field credential "cos_key", Json.field credential "secret_key" with
      | some (.str cosKey), some (.str _) => .ok
          { hostname, pathname := "/" ++ "/".intercalate ((cosKey.splitOn "/").map env.encodeUriComponent) }
      | _, _ => .error .other

/-- What is thrown for the answer to an upload. -/
def uploadFailure : FetchReply → Option Stop
  | some (true, _) => none
  | _ => some (mirrorError "ima_cos_upload_failed" "cos_upload" "cos_upload_failed")

/-! ## The mirror -/

def stateKeyOf (fingerprint : String) : String := "ima-mirror:" ++ fingerprint

/-- `join(stateDirectory, ...)` -/
def markerPathOf (options : MirrorOptions) (fingerprint : String) : String :=
  options.stateDirectory ++ "/" ++ fingerprint ++ ".json"

/-- Whether there is a marker. -/
def isMirrored (options : MirrorOptions) (fingerprint : String) : ImaProg Bool :=
  if options.hasStateStore then .call (.getState (stateKeyOf fingerprint)) fun
    | .error () => .ret (.error .other)
    | .ok state => .ret (.ok !(state = none || state = some .null))
  else .call (.markerExists (markerPathOf options fingerprint)) fun
    | .error () => .ret (.error .other)
    | .ok found => .ret (.ok found)

/-- `knowledgeBaseId ??= await findUniqueKnowledgeBase(...)` -/
def knowledgeBase (options : MirrorOptions) (fuel : Nat) : ImaProg Value :=
  .call .readKnowledgeBaseId fun
    | none | some .null => (findUniqueKnowledgeBase options fuel).andThen fun id =>
      .call (.writeKnowledgeBaseId id) fun _ => .ret (.ok id)
    | some id => .ret (.ok (some id))

/-- The marker is stored. -/
def storeMarker (options : MirrorOptions) (fingerprint : String) (marker : Marker) : ImaProg Unit :=
  let stored : Except Unit Unit → ImaProg Unit := fun
    | .error () => .ret (.error .other)
    | .ok () => .ret (.ok ())
  if options.hasStateStore then .call (.putState (stateKeyOf fingerprint) marker) stored
  else .call (.writeMarker (markerPathOf options fingerprint) marker) stored

/-- The marker of a complete mirror, from the knowledge base. -/
def completeMirror (env : MirrorEnv) (options : MirrorOptions) (fingerprint : String)
    (input : MirrorInput) (knowledgeBaseId : Value) : ImaProg Unit :=
  .call .now fun completedAt =>
    match knowledgeBaseId with
    | some (.str id) => storeMarker options fingerprint
        { completedAt, contentDigest := env.sha256Hex input.content, knowledgeId := env.sha256Hex id }
    | _ => .ret (.error .other)

/-- From the creation of the media on. -/
def addArticle (env : MirrorEnv) (input : MirrorInput) (knowledgeBaseId : Value) (folderId name : String) :
    ImaProg Unit :=
  let imaContent := env.renderImaMarkdownCopy input.content
  let fileSize := imaContent.utf8ByteSize
  .call (.fetch (.createMedia knowledgeBaseId name fileSize)) fun reply =>
    match imaData "create_media" reply with
    | .error e => .ret (.error e)
    | .ok media =>
      match cosTarget env (Json.field media "cos_credential") with
      | .error e => .ret (.error e)
      | .ok target => .call (.fetch (.putObject target.hostname target.pathname imaContent)) fun reply =>
        match uploadFailure reply with
        | some e => .ret (.error e)
        | none => .call .now fun now =>
          .call (.fetch (.addKnowledge knowledgeBaseId folderId name (Json.field media "media_id")
              ((Json.field media "cos_credential").bind fun c => Json.field c "cos_key") fileSize
              (now / 1000))) fun reply =>
            match imaData "add_knowledge" reply with
            | .error e => .ret (.error e)
            | .ok _ => .ret (.ok ())

/-- From the folder of the month on, for an article that has no marker. -/
def mirrorArticle (env : MirrorEnv) (options : MirrorOptions) (fuel : Nat) (fingerprint : String)
    (input : MirrorInput) (knowledgeBaseId : Value) : ImaProg Unit :=
  match buildImaLocation input.filename with
  | .error e => .ret (.error e)
  | .ok location =>
    (findUniqueMonthFolder options knowledgeBaseId location.month fuel).andThen fun folderId =>
      .call (.fetch (.checkRepeatedNames knowledgeBaseId folderId location.filename)) fun reply =>
        match readRepeated reply with
        | .error e => .ret (.error e)
        | .ok true => .ret (.error
            (mirrorError "ima_duplicate_unverified" "duplicate_check" "duplicate_unverified"))
        | .ok false =>
          (addArticle env input knowledgeBaseId folderId location.filename).andThen fun _ =>
            completeMirror env options fingerprint input knowledgeBaseId

/-- What the `catch` throws on. -/
def rethrown : Stop → Stop
  | .other => mirrorError "ima_unknown_failed" "unknown" "unknown"
  | stop => stop

/-- The `try` of `mirror(input)`. -/
def tryMirror (env : MirrorEnv) (options : MirrorOptions) (fuel : Nat) (input : MirrorInput) :
    ImaProg Unit :=
  match env.sourceFingerprint input.sourceUrl with
  | none => .ret (.error .other)
  | some fingerprint =>
    (isMirrored options fingerprint).andThen fun mirrored =>
      if mirrored then .ret (.ok ())
      else (knowledgeBase options fuel).andThen fun id =>
        mirrorArticle env options fuel fingerprint input id

/-- `createImaArticleMirror(options).mirror(input)` -/
def mirror (env : MirrorEnv) (options : MirrorOptions) (fuel : Nat) (input : MirrorInput) :
    ImaProg Unit :=
  if options.enabled then (tryMirror env options fuel input).bind fun
    | .ok () => .ret (.ok ())
    | .error stop => .ret (.error (rethrown stop))
  else .ret (.ok ())

end InboxServer.Ima
