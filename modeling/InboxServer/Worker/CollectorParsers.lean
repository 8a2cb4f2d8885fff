import InboxServer.Worker.ArticleArchive

/-!
# What collectors read

`parseTelegramUpdates` and `parseDidaTasks` of `apps/worker/src/collector-parsers.ts`, with the links
that they find in a text. Whether `new URL(value)` accepts a text as an HTTP URL is a parameter.
-/

namespace InboxServer

/-! ## Texts -/

/-- `stringValue(value)`; a number is carried by its text. -/
def stringValue : Option Json → String
  | some (.str s) => trimText s
  | some (.num text) => text
  | _ => ""

/-- `text.replace(/\s+/g, " ")` -/
def collapseSpaces : List Char → List Char
  | [] => []
  | c :: text =>
    if isSpaceChar c then
      match text with
      | [] => [' ']
      | d :: _ => if isSpaceChar d then collapseSpaces text else ' ' :: collapseSpaces text
    else c :: collapseSpaces text

/-- `cleanText(value)` -/
def cleanText (value : String) : String := String.ofList (collapseSpaces (trimText value).toList)

example : cleanText " a \t\n b " = "a b" := by decide +kernel

/-- `trimUrl(value)` -/
def trimUrl (value : String) : String :=
  String.ofList (value.toList.reverse.dropWhile fun c =>
    c ∈ ['.', ',', ';', '!', '?', '，', '。', '；', '！', '？']).reverse

/-- `stripScheme` gives what follows `https?:\/\/`, with the scheme. -/
def stripScheme (text : List Char) : Option (List Char × List Char) :=
  ["https://".toList, "http://".toList].findSome? fun scheme =>
    if scheme.isPrefixOf text then some (scheme, text.drop scheme.length) else none

/-- `https?:\/\/[class]+` at the start of a text: what it matched, and the rest. -/
def matchUrl (allowed : Char → Bool) (text : List Char) : Option (List Char × List Char) :=
  match stripScheme text with
  | none => none
  | some (scheme, rest) =>
    if (rest.takeWhile allowed).isEmpty then none
    else some (scheme ++ rest.takeWhile allowed, rest.dropWhile allowed)

/-- `\[([^\]]+)\]\((https?:\/\/[class]+)\)` at the start of a text: its two groups, and the rest. -/
def matchMarkdownLink (allowed : Char → Bool) :
    List Char → Option ((List Char × List Char) × List Char)
  | '[' :: text =>
    match text.dropWhile (· ≠ ']') with
    | ']' :: '(' :: target =>
      match matchUrl allowed target with
      | some (url, ')' :: rest) =>
        if (text.takeWhile (· ≠ ']')).isEmpty then none
        else some ((text.takeWhile (· ≠ ']'), url), rest)
      | _ => none
    | _ => none
  | _ => none

/-- `text.matchAll(pattern)`; a match is never empty, so the length of the text is fuel enough. -/
def matchAll {α : Type} (pattern : List Char → Option (α × List Char)) :
    Nat → List Char → List α
  | 0, _ | _, [] => []
  | fuel + 1, c :: text =>
    match pattern (c :: text) with
    | some (found, rest) => found :: matchAll pattern fuel rest
    | none => matchAll pattern fuel text

/-- `[^\s)]` -/
def isMarkdownUrlChar (c : Char) : Bool := !isSpaceChar c && c ≠ ')'

/-- `[^\s<>()\]]` -/
def isBareUrlChar (c : Char) : Bool := !isSpaceChar c && c ∉ ['<', '>', '(', ')', ']']

structure UrlTitle where
  title : String
  url : String
  deriving DecidableEq

/-- `pairs.push({ title, url })`, for an HTTP URL that is not among them; an empty title is the URL. -/
def pushPair (isHttpUrl : String → Bool) (pairs : List UrlTitle) (title : String) (found : List Char) :
    List UrlTitle :=
  let url := trimUrl (String.ofList found)
  if !isHttpUrl url || pairs.any (·.url = url) then pairs
  else pairs ++ [{ title := if title = "" then url else title, url }]

/-- `extractUrlTitlePairs(text)`: Markdown links first, then bare URLs. -/
def extractUrlTitlePairs (isHttpUrl : String → Bool) (text : String) : List UrlTitle :=
  let chars := text.toList
  let marked := (matchAll (matchMarkdownLink isMarkdownUrlChar) chars.length chars).foldl
    (fun pairs found => pushPair isHttpUrl pairs (cleanText (String.ofList found.1)) found.2) []
  (matchAll (matchUrl isBareUrlChar) chars.length chars).foldl
    (fun pairs found => pushPair isHttpUrl pairs "" found) marked

example : extractUrlTitlePairs (fun _ => true) "[a  b](https://x.org/1) http://y.org, http://y.org" =
    [⟨"a b", "https://x.org/1"⟩, ⟨"http://y.org", "http://y.org"⟩] := by decide +kernel

/-- `title.replace(/\[([^\]]+)\]\(https?:\/\/[^)]+\)/g, "$1")` -/
def stripMarkdownLinks : Nat → List Char → List Char
  | 0, text => text
  | _, [] => []
  | fuel + 1, c :: text =>
    match matchMarkdownLink (· ≠ ')') (c :: text) with
    | some ((label, _), rest) => label ++ stripMarkdownLinks fuel rest
    | none => c :: stripMarkdownLinks fuel text

/-- `extractUrlAndTitle(title, content)` -/
def extractUrlAndTitle (isHttpUrl : String → Bool) (title content : String) : Option UrlTitle :=
  match extractUrlTitlePairs isHttpUrl (title ++ "\n" ++ content) with
  | [] => none
  | pair :: _ =>
    let cleanTitle := cleanText (String.ofList (stripMarkdownLinks title.toList.length title.toList))
    some { title := if cleanTitle = "" then pair.title else cleanTitle, url := pair.url }

/-! ## Dida -/

/-- A task to delete. -/
structure DeleteTask where
  id : String
  projectId : String
  deriving DecidableEq

structure DidaParse where
  deleteTasks : List DeleteTask
  items : List DispatchItem
  savedTitles : List String

/-- The title of a task, under which it is saved. -/
def didaTitle (task : Fields) : String := stringValue (task.lookup "title")

/-- The first link of a task. -/
def didaLink (isHttpUrl : String → Bool) (task : Fields) : Option UrlTitle :=
  extractUrlAndTitle isHttpUrl (didaTitle task) (stringValue (task.lookup "content"))

/-- How a task is deleted; one without an id or a project is not. -/
def didaDelete (task : Fields) : Option DeleteTask :=
  let id := stringValue (task.lookup "id")
  let projectId := stringValue (task.lookup "projectId")
  if id ≠ "" && projectId ≠ "" then some { id, projectId } else none

/-- `{ itemKind: "link", tags: [], title: pair.title || pair.url, url: pair.url }` -/
def didaItem (pair : UrlTitle) : DispatchItem :=
  .link (some []) (some (if pair.title = "" then pair.url else pair.title)) pair.url

/-- The body of the loop of `parseDidaTasks`. -/
def parseDidaTask (isHttpUrl : String → Bool) (saved : List String) (parse : DidaParse) :
    Json → DidaParse
  | .obj task =>
    match didaLink isHttpUrl task with
    | none => parse
    | some pair =>
      let deleteTasks := parse.deleteTasks ++ (didaDelete task).toList
      if didaTitle task ∈ saved then { parse with deleteTasks }
      else
        { deleteTasks
          items := parse.items ++ [didaItem pair]
          savedTitles := parse.savedTitles.insert (didaTitle task) }
  | _ => parse

/-- `parseDidaTasks(input, saved)` -/
def parseDidaTasks (isHttpUrl : String → Bool) (input : List Json) (saved : List String) :
    DidaParse :=
  input.foldl (parseDidaTask isHttpUrl saved) { deleteTasks := [], items := [], savedTitles := saved }

/-! ## Telegram -/

structure TelegramFile where
  fileId : String
  remoteName : String
  deriving DecidableEq

structure TelegramParse where
  files : List TelegramFile
  items : List DispatchItem
  offset : Int

/-- The number that decimal digits write. -/
def readDigits (digits : List Char) : Option Nat :=
  if digits.isEmpty || !digits.all Char.isDigit then none
  else some (Nat.ofDigitChars 10 digits 0)

/-- The integer that a text writes. -/
def readInteger (text : String) : Option Int :=
  match text.toList with
  | '-' :: digits => (readDigits digits).map fun n : Nat => -(n : Int)
  | digits => (readDigits digits).map Int.ofNat

theorem readDigits_toDigits (n : Nat) : readDigits (Nat.toDigits 10 n) = some n := by
  have hall : (Nat.toDigits 10 n).all Char.isDigit = true :=
    List.all_eq_true.mpr fun c hc => Nat.isDigit_of_mem_toDigits (by omega) (by omega) hc
  have hne : (Nat.toDigits 10 n).isEmpty = false := by simp
  rw [readDigits, hall, hne, Nat.ofDigitChars_ten_toDigits]
  rfl

/-- An integer is read as it is written. -/
theorem readInteger_toString (n : Int) : readInteger (toString n) = some n := by
  have hrepr : toString n = if 0 ≤ n then n.toNat.repr else "-" ++ (-n).toNat.repr :=
    Int.repr_eq_if
  rw [hrepr]
  split
  · next hn =>
    unfold readInteger
    rw [Nat.toList_repr]
    split
    · next digits hdigits =>
      have hdigit : Char.isDigit '-' = true := by
        have hmem : '-' ∈ Nat.toDigits 10 n.toNat := by
          rw [hdigits]
          exact List.mem_cons_self
        exact Nat.isDigit_of_mem_toDigits (by omega) (by omega) hmem
      cases hdigit
    · rw [readDigits_toDigits]
      simp [Int.toNat_of_nonneg hn]
  · next hn =>
    unfold readInteger
    simp only [String.toList_append, Nat.toList_repr]
    show (readDigits (Nat.toDigits 10 (-n).toNat)).map _ = _
    rw [readDigits_toDigits]
    simp
    omega

/-- The number of a field, where it is one; Telegram's ids are integers. -/
def integerValue : Option Json → Option Int
  | some (.num text) => readInteger text
  | _ => none

/-- `{ fileId, remoteName }` of an entry that has a file id, its name given for that id. -/
def fileOf (entry : Option Json) (remoteName : Fields → String → String) : Option TelegramFile :=
  let fields := Json.record entry
  let fileId := stringValue (fields.lookup "file_id")
  if fileId = "" then none else some { fileId, remoteName := remoteName fields fileId }

def fileCandidates : List (String × String) :=
  [("document", ""), ("video", ".mp4"), ("voice", ".ogg"), ("audio", ".mp3"), ("animation", ".gif")]

/-- `photos.at(-1)`, as far as it is a record. -/
def lastPhoto (message : Fields) : Option Json :=
  match message.lookup "photo" with
  | some (.arr photos) => photos.getLast?
  | _ => none

/-- `stringValue(entry.file_name) || fallback` -/
def fileName (fallback : String) (entry : Fields) : String :=
  let name := stringValue (entry.lookup "file_name")
  if name = "" then fallback else name

/-- `telegramFile(message)` -/
def telegramFile (message : Fields) : Option TelegramFile :=
  (fileOf (lastPhoto message) fun _ fileId => fileId ++ ".jpg").or
    (fileCandidates.findSome? fun candidate =>
      fileOf (message.lookup candidate.1) fun entry fileId =>
        fileName (fileId ++ candidate.2) entry)

/-- The items of a message without a file. -/
def messageItems (isHttpUrl : String → Bool) (message : Fields) : List DispatchItem :=
  match message.lookup "text" with
  | some (.str s) =>
    let text := trimText s
    if text = "" then []
    else
      match extractUrlTitlePairs isHttpUrl text with
      | [] => [.text text none]
      | pairs => pairs.map fun pair => .link (some []) (some pair.title) pair.url
  | _ => []

/-- The body of the loop of `parseTelegramUpdates`. -/
def parseTelegramUpdate (isHttpUrl : String → Bool) (parse : TelegramParse) :
    Json → TelegramParse
  | .obj update =>
    let offset := ((integerValue (update.lookup "update_id")).map (max parse.offset)).getD
      parse.offset
    let message := Json.record (update.lookup "message")
    match telegramFile message with
    | some file => { parse with offset, files := parse.files ++ [file] }
    | none => { parse with offset, items := parse.items ++ messageItems isHttpUrl message }
  | _ => parse

/-- `root.result`, where it is an array. -/
def resultList (input : Json) : List Json :=
  match (Json.record (some input)).lookup "result" with
  | some (.arr updates) => updates
  | _ => []

/-- `parseTelegramUpdates(input, currentOffset)` -/
def parseTelegramUpdates (isHttpUrl : String → Bool) (input : Json) (currentOffset : Int) :
    TelegramParse :=
  (resultList input).foldl (parseTelegramUpdate isHttpUrl)
    { files := [], items := [], offset := currentOffset }

end InboxServer
