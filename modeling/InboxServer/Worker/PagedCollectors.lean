import InboxServer.Infra.FirstSeen
import InboxServer.Worker.HttpCollectors

/-!
# Collectors that go through pages

`collectGithubStars` of `apps/worker/src/http-collectors.ts`, `collectZhihu` and `collectBilibili` of
`apps/worker/src/browser-collectors.ts`, with the parsers of their pages. The three loops are one
definition, `collectPages`. The context of the browser, its credential and the session that is read
off it are left out.
-/

namespace InboxServer

open Infra

/-! ## Parsers -/

structure Bookmark where
  key : String
  title : String
  url : String
  deriving DecidableEq

/-- `Array.isArray(record[name]) ? record[name] : []` -/
def arrayField (record : Fields) (name : String) : List Json :=
  match record.lookup name with
  | some (.arr items) => items
  | _ => []

/-- `uniqueBookmarks(input)` -/
def uniqueBookmarks (input : List Bookmark) : List Bookmark := firstBy Bookmark.key [] input

/-- What `parseGithubStars` makes of an entry. -/
def parseGithubStar (isHttpUrl : String → Bool) : Json → Option Bookmark
  | .obj raw =>
    let url := stringValue (raw.lookup "html_url")
    if isHttpUrl url then
      some { key := url, title := orText (stringValue (raw.lookup "full_name")) url, url }
    else none
  | _ => none

/-- `parseGithubStars(input)` -/
def parseGithubStars (isHttpUrl : String → Bool) : Json → Except Thrown (List Bookmark)
  | .arr input => .ok (input.filterMap (parseGithubStar isHttpUrl))
  | _ => thrownError "unexpected GitHub starred response"

/-- `isRecord(rawEntry.content) ? rawEntry.content : rawEntry` -/
def zhihuContent (rawEntry : Fields) : Fields :=
  match rawEntry.lookup "content" with
  | some (.obj content) => content
  | _ => rawEntry

def zhihuUrl (content : Fields) : String :=
  orText (stringValue (content.lookup "url"))
    (if stringValue (content.lookup "type") = "answer" then
      "https://www.zhihu.com/question/" ++
        stringValue ((Json.record (content.lookup "question")).lookup "id") ++ "/answer/" ++
          stringValue (content.lookup "id")
    else if stringValue (content.lookup "type") = "article" then
      "https://zhuanlan.zhihu.com/p/" ++ stringValue (content.lookup "id")
    else "")

def zhihuTitle (content : Fields) : String :=
  let title := orText (stringValue (content.lookup "title")) (stringValue (content.lookup "excerpt"))
  if stringValue (content.lookup "type") = "answer" then
    orText (stringValue ((Json.record (content.lookup "question")).lookup "title")) title
  else title

/-- `title.length > 100 ? title.slice(0, 100) + "..." : title` -/
def clipTitle (title : String) : String :=
  if (utf16Units title).length > 100 then
    String.ofList (sliceUnits 100 title.toList) ++ "..."
  else title

/-- What `parseZhihuCollection` makes of an entry. -/
def parseZhihuEntry (isHttpUrl : String → Bool) : Json → Option Bookmark
  | .obj rawEntry =>
    let url := zhihuUrl (zhihuContent rawEntry)
    if isHttpUrl url then
      some { key := url, title := orText (clipTitle (zhihuTitle (zhihuContent rawEntry))) url, url }
    else none
  | _ => none

/-- `root.data`, where it is an array. -/
def zhihuData (input : Json) : List Json := arrayField (Json.record (some input)) "data"

/-- `paging.is_end === true` -/
def zhihuIsEnd (input : Json) : Bool :=
  (Json.record ((Json.record (some input)).lookup "paging")).lookup "is_end" = some (.bool true)

/-- `parseZhihuCollection(input).items` -/
def parseZhihuCollection (isHttpUrl : String → Bool) (input : Json) : List Bookmark :=
  (zhihuData input).filterMap (parseZhihuEntry isHttpUrl)

/-- What `parseBilibiliVideos` makes of an entry. -/
def parseBilibiliVideo : Json → Option Bookmark
  | .obj raw =>
    let bvid := stringValue (raw.lookup "bvid")
    if bvid = "" then none
    else
      let url := "https://www.bilibili.com/video/" ++ bvid
      some { key := url, title := orText (stringValue (raw.lookup "title")) bvid, url }
  | _ => none

/-- `parseBilibiliVideos(input)` -/
def parseBilibiliVideos (input : List Json) : List Bookmark :=
  uniqueBookmarks (input.filterMap parseBilibiliVideo)

/-- `data.medias`, where it is an array. -/
def bilibiliMedias (input : Json) : List Json :=
  arrayField (Json.record ((Json.record (some input)).lookup "data")) "medias"

/-- `parseBilibiliFavorites(input)` -/
def parseBilibiliFavorites (input : Json) : List Bookmark := parseBilibiliVideos (bilibiliMedias input)

/-! ## Calls -/

inductive PagedCall where
  | getState (key : String)
  /-- A page of `/user/starred`, of 100. -/
  | starredPage (token : String) (page : Nat)
  | newPage
  | goto (url : String)
  /-- `/api/v4/collections/<collectionId>/items`, 20 from the offset on. -/
  | zhihuItems (collectionId : String) (offset : Nat)
  /-- A page of `/x/v3/fav/resource/list`, of 20. -/
  | bilibiliList (mediaId : String) (pageNumber : Nat)
  | closePage
  deriving DecidableEq

@[reducible] def PagedCall.Answer : PagedCall → Type
  | .getState _ => Except Thrown (Option Json)
  | .starredPage .. | .zhihuItems .. | .bilibiliList .. => Except Thrown JsonResponse
  | .newPage | .goto _ | .closePage => Except Thrown Unit

abbrev PagedProg (α : Type) := Prog PagedCall PagedCall.Answer (Except Thrown α)

/-- `pageJson(page, url)`, of the response. -/
def pageJson : Except Thrown JsonResponse → Except Thrown Json
  | .error e => .error e
  | .ok (status, body) =>
    if status = 401 || status = 403 then thrownError "browser login expired"
    else if !isOk status then
      thrownError ("browser collector request failed: " ++ toString status)
    else
      match body with
      | some json => .ok json
      | none => thrownError "browser collector response is invalid JSON"

/-! ## Pages -/

/-- The bookmarks of a page, and whether the loop ends with it. -/
abbrev PageRead := List Bookmark × Bool

/--
The loop of a collector: as many pages as are left, from the given one on, until one is the last or
has nothing that is not known.
-/
def collectPages (fetch : Nat → PagedProg PageRead) (known : List String) :
    Nat → Nat → List Bookmark → PagedProg (List Bookmark)
  | 0, _, fresh => .ret (.ok fresh)
  | left + 1, page, fresh => (fetch page).andThen fun read =>
    let pageFresh := read.1.filter fun bookmark => bookmark.key ∉ known
    if read.2 || pageFresh = [] then .ret (.ok (fresh ++ pageFresh))
    else collectPages fetch known left (page + 1) (fresh ++ pageFresh)

/-- The keys of a baseline. -/
def knownKeys (state : Option Json) : List String := firstBy id [] (readStringArray state "knownKeys")

/-- The baseline of a source, once the bookmarks are collected. -/
def mergedState (known : List String) (fresh : List Bookmark) : Json :=
  .obj [("knownKeys", .arr ((firstBy id [] (known ++ fresh.map Bookmark.key)).map .str))]

/-- `bookmarkResult(source, fresh, merged, tags)` and `bookmarks(source, fresh, merged)` -/
def bookmarkResult (source : String) (tags : List String) (fresh : List Bookmark)
    (known : List String) : CollectionResult where
  items := fresh.map fun bookmark => .link (some tags) (some bookmark.title) bookmark.url
  stateUpdates := [("baseline:" ++ source, mergedState known fresh)]
  hasAfterCommit := false
  loginSession := none

/-- The baseline of a source, then its pages, and the result. -/
def collectFresh (source : String) (tags : List String)
    (pages : List String → PagedProg (List Bookmark)) : PagedProg CollectionResult :=
  .call (.getState ("baseline:" ++ source)) fun
    | .error e => .ret (.error e)
    | .ok state => (pages (knownKeys state)).andThen fun fresh =>
      .ret (.ok (bookmarkResult source tags fresh (knownKeys state)))

/-! ## GitHub -/

def fetchStarred (isHttpUrl : String → Bool) (token : String) (i : Nat) : PagedProg PageRead :=
  .call (.starredPage token (i + 1)) fun reply =>
    .ret (do
      let payload ← jsonReply reply
      let bookmarks ← parseGithubStars isHttpUrl payload
      pure (bookmarks, decide (bookmarks.length < 100)))

/-- `collectGithubStars(dependencies)` -/
def collectGithubStars (options : CollectorOptions) : PagedProg CollectionResult :=
  match sourceToken options "github_stars" "token" with
  | .error e => .ret (.error e)
  | .ok token => collectFresh "github_stars" ["github"] fun known =>
    collectPages (fetchStarred options.isHttpUrl token) known 100 0 []

/-! ## Zhihu and Bilibili -/

/-- What a collector does with a page of the browser, which is closed in the end. -/
def withPage {α : Type} (url : String) (body : PagedProg α) : PagedProg α :=
  .call .newPage fun
    | .error e => .ret (.error e)
    | .ok () =>
      (Prog.call (.goto url) fun
        | .error e => .ret (.error e)
        | .ok () => body : PagedProg α) >>= fun result =>
          .call .closePage fun
            | .error e => .ret (.error e)
            | .ok () => .ret result

def fetchZhihu (isHttpUrl : String → Bool) (collectionId : String) (i : Nat) : PagedProg PageRead :=
  .call (.zhihuItems collectionId (20 * i)) fun reply =>
    .ret (do
      let payload ← pageJson reply
      let items := parseZhihuCollection isHttpUrl payload
      pure (items, decide (items = []) || zhihuIsEnd payload))

/-- `collectZhihu(config, context, dependencies)` -/
def collectZhihu (isHttpUrl : String → Bool) (config : Fields) : PagedProg CollectionResult :=
  match required config "collection_id" "zhihu" with
  | .error e => .ret (.error e)
  | .ok collectionId => collectFresh "zhihu" [] fun known =>
    withPage "https://www.zhihu.com/"
      (collectPages (fetchZhihu isHttpUrl collectionId) known 200 0 [])

def fetchBilibili (mediaId : String) (i : Nat) : PagedProg PageRead :=
  .call (.bilibiliList mediaId (i + 1)) fun reply =>
    .ret (do
      let payload ← pageJson reply
      let batch := parseBilibiliFavorites payload
      pure (batch, decide (batch = [])))

/-- `collectBilibili(config, context, dependencies)` -/
def collectBilibili (config : Fields) : PagedProg CollectionResult :=
  match required config "media_id" "bilibili" with
  | .error e => .ret (.error e)
  | .ok mediaId => collectFresh "bilibili" [] fun known =>
    withPage "https://www.bilibili.com/" (collectPages (fetchBilibili mediaId) known 200 0 [])

/-- `collectBrowserSource(source, dependencies)`, from its check that the source is enabled. -/
def collectBrowserSource (options : CollectorOptions) (source : String)
    (collect : Fields → PagedProg CollectionResult) : PagedProg CollectionResult :=
  match sourceConfig options source with
  | .error e => .ret (.error e)
  | .ok config => collect config

end InboxServer
