import InboxServer.Worker.JobHandler

/-!
# The article archiver

`createArticleArchiver` of `apps/worker/src/article-archive.ts`, as a program whose calls may all
throw. What it takes from packages and from the platform is a parameter, `ArchiveEnv`; what it logs
is left out.
-/

namespace InboxServer

open Infra

/-! ## What the archiver is given -/

structure ExtractedArticle where
  author : String
  markdown : String
  publishedAt : String
  title : String
  deriving DecidableEq

/-- What the archiver looks at of a `URL`. -/
structure UrlParts where
  hostname : String
  pathname : String

/-- A thrown value, by what the archiver looks at. -/
inductive ArchiveError where
  /-- A `ZhihuApiRejectedError` with its status. -/
  | zhihuRejected (status : Nat)
  | error (message : String)
  | other
  deriving DecidableEq

structure ArchiveEnv where
  /-- `new URL(url)`; `none` when it throws. -/
  parseUrl : String → Option UrlParts
  /-- `eta.renderString(template, data)` -/
  renderString : String → Entries String → Except ArchiveError String
  /-- `text.toLocaleLowerCase("en-US")` -/
  toLowerCase : String → String
  /-- `text.normalize("NFKC")` -/
  normalizeNfkc : String → String
  /-- `\p{L}` or `\p{N}` -/
  isLetterOrNumber : Char → Bool
  sha256Hex : String → String

/-- The options, and the settings of `channels` that are read. -/
structure ArchiverOptions where
  credentialName : Option String
  hasGetCredential : Bool
  hasMirror : Bool
  hasRecordEvent : Bool
  minVisibleCharacters : Nat
  maxOutputBytes : Nat

/-- The article item that is archived. -/
structure ArticleItem where
  tags : Option (List String)
  title : Option String
  url : String

/-- What `save` gets. -/
structure ArticleFile where
  content : String
  filename : String
  sourceUrl : String
  deriving DecidableEq

structure SavedArticle where
  created : Bool
  filename : String
  deriving DecidableEq

structure ArticleEvent where
  filename : Option String
  reason : Option String
  sourceUrl : String
  status : String
  title : String
  urlFingerprint : String
  deriving DecidableEq

inductive ArchiveCall where
  | getCredential (name : String)
  | fetchZhihuArticle (credential : Json) (url : String)
  | fetchAndExtract (url : String)
  | browserExtract (url : String)
  | now
  | readTemplate
  | save (file : ArticleFile)
  | mirror (file : ArticleFile) (title : String)
  | recordEvent (event : ArticleEvent)
  deriving DecidableEq

@[reducible] def ArchiveCall.Answer : ArchiveCall → Type
  | .getCredential _ => Except ArchiveError (Option Json)
  | .fetchZhihuArticle .. | .fetchAndExtract _ | .browserExtract _ =>
    Except ArchiveError ExtractedArticle
  | .now => Instant
  | .readTemplate => Except ArchiveError String
  | .save _ => Except ArchiveError SavedArticle
  | .mirror .. | .recordEvent _ => Except ArchiveError Unit

abbrev ArchiveEvent := Event ArchiveCall ArchiveCall.Answer

abbrev ArchiveProg (α : Type) := Prog ArchiveCall ArchiveCall.Answer (Except ArchiveError α)

/-! ## Articles -/

/-- `text.trim()` -/
def trimText (text : String) : String :=
  String.ofList ((text.toList.dropWhile isSpaceChar).reverse.dropWhile isSpaceChar).reverse

/-- `text.includes(part)` -/
def includesText (text part : String) : Bool := text.toList.tails.any part.toList.isPrefixOf

def articleErrorMarkers : List String :=
  ["访问过于频繁", "当前请求存在异常", "环境异常", "请完成验证", "unable to access", "access denied",
    "this content is not available"]

/-- `visibleCharacters(markdown)` -/
def visibleCharacters (markdown : String) : Nat :=
  (utf16Units (String.ofList (markdown.toList.filter fun c => !isSpaceChar c))).length

inductive AssessmentFailure where
  | errorMarker | missingTitle | shortContent
  deriving DecidableEq

def AssessmentFailure.name : AssessmentFailure → String
  | .errorMarker => "error_marker"
  | .missingTitle => "missing_title"
  | .shortContent => "short_content"

/-- `assessArticle(article, minVisibleCharacters)`; `none` is a valid article. -/
def assessArticle (env : ArchiveEnv) (minVisibleCharacters : Nat) (article : ExtractedArticle) :
    Option AssessmentFailure :=
  let markdown := trimText article.markdown
  if articleErrorMarkers.any (includesText (env.toLowerCase markdown)) then some .errorMarker
  else if trimText article.title = "" then some .missingTitle
  else if visibleCharacters markdown < minVisibleCharacters then some .shortContent
  else none

/-- `withFallbackTitle(article, fallbackTitle)` -/
def withFallbackTitle (fallbackTitle : String) (article : ExtractedArticle) : ExtractedArticle :=
  if trimText article.title ≠ "" || trimText fallbackTitle = "" then article
  else { article with title := trimText fallbackTitle }

/-- `resolveZhihuArticleRequest(url) !== null`; `none` when the URL does not parse. -/
def isZhihuArticle (env : ArchiveEnv) (url : String) : Option Bool :=
  (env.parseUrl url).map fun parsed =>
    let segments := (parsed.pathname.splitOn "/").filter (· ≠ "")
    let answer := parsed.hostname = "www.zhihu.com" && 4 ≤ segments.length &&
      segments[0]? = some "question" && segments[2]? = some "answer"
    let column := parsed.hostname = "zhuanlan.zhihu.com" && segments[0]? = some "p" &&
      segments[1]?.isSome
    let pin := parsed.hostname = "www.zhihu.com" && segments[0]? = some "pin" && segments[1]?.isSome
    let video := parsed.hostname = "www.zhihu.com" && segments[0]? = some "video" &&
      segments[1]? = some "immersion" && segments[2]? = some "feed" && segments[3]?.isSome
    answer || column || pin || video

/-! ## Files -/

/-- `title.replace(/[^\p{L}\p{N}]+/gu, "-")`; `inRun` says that the run has its hyphen. -/
def hyphenate (isLetterOrNumber : Char → Bool) (inRun : Bool) : List Char → List Char
  | [] => []
  | c :: cs =>
    if isLetterOrNumber c then c :: hyphenate isLetterOrNumber false cs
    else if inRun then hyphenate isLetterOrNumber true cs
    else '-' :: hyphenate isLetterOrNumber true cs

/-- The characters that fit into a number of bytes. -/
def takeBytes : Nat → List Char → List Char
  | _, [] => []
  | n, c :: cs => if c.utf8Size ≤ n then c :: takeBytes (n - c.utf8Size) cs else []

/-- `buildArchiveFilename(title, archivedAt)` -/
def buildArchiveFilename (env : ArchiveEnv) (title : String) (archivedAt : Instant) : String :=
  let day := civilDate (shanghaiDay archivedAt)
  let date := toString (if 0 < day.year then day.year else 1 - day.year).toNat ++
    pad2 day.month.toNat ++ pad2 day.day.toNat
  let hyphenated := hyphenate env.isLetterOrNumber false (env.normalizeNfkc title).toList
  let stripped := ((hyphenated.dropWhile (· = '-')).reverse.dropWhile (· = '-')).reverse
  let normalizedTitle := if stripped = [] then "untitled".toList else stripped
  date ++ "-" ++ String.ofList (takeBytes (171 - (date ++ "-.md").utf8ByteSize) normalizedTitle) ++
    ".md"

/-- `yamlScalar(value)` -/
def yamlScalar (value : String) : String := Json.quote value

/-- What the template gets. -/
def templateData (archivedAt : Instant) (article : ExtractedArticle) (sourceUrl : String)
    (tags : List String) : Entries String :=
  [("archived_at_yaml", yamlScalar (toISOString archivedAt)), ("author_yaml", yamlScalar article.author),
    ("markdown", trimText article.markdown), ("published_at_yaml", yamlScalar article.publishedAt),
    ("source_url_yaml", yamlScalar sourceUrl), ("tags_yaml", (jsonTags tags).stringify),
    ("title_yaml", yamlScalar article.title)]

/-- `renderArticleMarkdown(template, input)` -/
def renderArticleMarkdown (env : ArchiveEnv) (template : String) (archivedAt : Instant)
    (article : ExtractedArticle) (sourceUrl : String) (tags : List String) :
    Except ArchiveError String :=
  (env.renderString template (templateData archivedAt article sourceUrl tags)).map fun output =>
    trimText output ++ "\n"

/-! ## The template -/

/-- A template of `eta` that has raw tags only. -/
inductive TemplatePiece where
  | text (s : String)
  /-- `<%~ it.name %>` -/
  | raw (name : String)

def TemplatePiece.source : TemplatePiece → String
  | .text s => s
  | .raw name => "<%~ it." ++ name ++ " %>"

def TemplatePiece.fill (data : Entries String) : TemplatePiece → String
  | .text s => s
  | .raw name => (data.lookup name).getD "undefined"

/-- `templates/article.md.eta` -/
def articleTemplate : List TemplatePiece :=
  [.text "---\ntitle: ", .raw "title_yaml", .text "\nsource_url: ", .raw "source_url_yaml",
    .text "\narchived_at: ", .raw "archived_at_yaml", .text "\nauthor: ", .raw "author_yaml",
    .text "\npublished_at: ", .raw "published_at_yaml", .text "\ntags: ", .raw "tags_yaml",
    .text "\n---\n\n", .raw "markdown", .text "\n"]

/-- The text of the template file. -/
def articleTemplateSource : String := String.join (articleTemplate.map TemplatePiece.source)

/-- The template with its tags filled in. -/
def fillArticle (data : Entries String) : String :=
  String.join (articleTemplate.map (TemplatePiece.fill data))

/-- `eta` puts the values of raw tags into the template as they are, as `autoTrim: false` has it. -/
def ArchiveEnv.FillsTemplate (env : ArchiveEnv) : Prop :=
  ∀ data, env.renderString articleTemplateSource data = .ok (fillArticle data)

/-! ## Failures -/

/-- `error instanceof Error ? error.message : ""` -/
def ArchiveError.message : ArchiveError → String
  | .zhihuRejected _ => "zhihu_api_rejected"
  | .error message => message
  | .other => ""

/-- `safeErrorCode(error)` -/
def safeErrorCode (e : ArchiveError) : String :=
  if e.message ≠ "" && e.message.toList.all isWordChar then e.message else "article_archive_failed"

/-- A keyword, which is given in lower case, stands somewhere in the text. -/
def mentions (keywords : List String) (text : String) : Bool :=
  text.toList.tails.any fun rest => keywords.any fun k => (stripKeyword k.toList rest).isSome

/-- `safeFailureReasonCode(error)` -/
def safeFailureReasonCode (e : ArchiveError) : String :=
  if mentions ["timeout", "timed out", "time out"] e.message then "article_timeout"
  else if mentions ["network", "fetch", "connection", "socket", "econn", "enotfound", "unavailable"]
      e.message then "article_network_error"
  else safeErrorCode e

/-- `error instanceof ZhihuApiRejectedError ? error.status : undefined` -/
def ArchiveError.upstreamStatus : ArchiveError → Option Nat
  | .zhihuRejected status => some status
  | .error _ | .other => none

/-! ## The archiver -/

/-- `options.recordEvent?.(event)` -/
def recordEvent (options : ArchiverOptions) (event : ArticleEvent) : ArchiveProg Unit :=
  if options.hasRecordEvent then .call (.recordEvent event) .ret else .ret (.ok ())

/-- The article through the API of Zhihu. -/
def extractZhihu (options : ArchiverOptions) (item : ArticleItem) : ArchiveProg ExtractedArticle :=
  match options.credentialName.filter (· ≠ "") with
  | none => .ret (.error (.error "zhihu_credential_name_missing"))
  | some credentialName =>
    if options.hasGetCredential then
      .call (.getCredential credentialName) fun
        | .error e => .ret (.error e)
        | .ok none => .ret (.error (.error "zhihu_credential_missing"))
        | .ok (some credential) => .call (.fetchZhihuArticle credential item.url) .ret
    else .ret (.error (.error "zhihu_credential_provider_missing"))

/-- The article from its page, or else from a browser. -/
def extractPage (env : ArchiveEnv) (options : ArchiverOptions) (item : ArticleItem) :
    ArchiveProg ExtractedArticle :=
  .call (.fetchAndExtract item.url) fun direct =>
    let articles := direct.toOption.map (withFallbackTitle (item.title.getD ""))
    match articles.filter fun article =>
        (assessArticle env options.minVisibleCharacters article).isNone with
    | some article => .ret (.ok article)
    | none => .call (.browserExtract item.url) fun article =>
        .ret (article.map (withFallbackTitle (item.title.getD "")))

/-- The article, and what is wrong with it if it was assessed. -/
def extract (env : ArchiveEnv) (options : ArchiverOptions) (item : ArticleItem) :
    ArchiveProg (ExtractedArticle × Option AssessmentFailure) :=
  match isZhihuArticle env item.url with
  | none => .ret (.error (.error "Invalid URL"))
  | some true => (extractZhihu options item).andThen fun article => .ret (.ok (article, none))
  | some false => (extractPage env options item).andThen fun article =>
      .ret (.ok (article, assessArticle env options.minVisibleCharacters article))

/-- `a || b` for texts. -/
def orText (a b : String) : String := if a = "" then b else a

/-- The file to save, and the title of the article. -/
def draft (env : ArchiveEnv) (options : ArchiverOptions) (item : ArticleItem)
    (article : ExtractedArticle) : ArchiveProg (ArticleFile × String) :=
  .call .now fun archivedAt => .call .readTemplate fun
    | .error e => .ret (.error e)
    | .ok template =>
      let title := orText (orText article.title (item.title.getD "")) item.url
      match renderArticleMarkdown env template archivedAt { article with title } item.url
          (item.tags.getD []) with
      | .error e => .ret (.error e)
      | .ok content =>
        if content.utf8ByteSize > options.maxOutputBytes then
          .ret (.error (.error "article_output_too_large"))
        else
          .ret (.ok ({ content, filename := buildArchiveFilename env title archivedAt
                       sourceUrl := item.url }, title))

/-- What happens before the write: a file to save, or `none` where the page is not an article. -/
def prepare (env : ArchiveEnv) (options : ArchiverOptions) (item : ArticleItem) :
    ArchiveProg (Option (ArticleFile × String)) :=
  (extract env options item).andThen fun (article, failure) =>
    match failure with
    | some failure =>
      (recordEvent options
        { filename := none, reason := some failure.name, sourceUrl := item.url, status := "skipped"
          title := orText article.title (item.title.getD "")
          urlFingerprint := env.sha256Hex item.url }).andThen fun _ => .ret (.ok none)
    | none => (draft env options item article).andThen fun file => .ret (.ok (some file))

/-- The mirror of a saved file. -/
def mirrorFile (options : ArchiverOptions) (file : ArticleFile) (title : String) :
    ArchiveProg Unit :=
  if options.hasMirror then .call (.mirror file title) .ret else .ret (.ok ())

/-- What happens from the write on. -/
def write (env : ArchiveEnv) (options : ArchiverOptions) (item : ArticleItem) (file : ArticleFile)
    (title : String) : ArchiveProg Unit :=
  .call (.save file) fun
    | .error e => .ret (.error e)
    | .ok saved =>
      (mirrorFile options { file with filename := saved.filename } title).andThen fun _ =>
        recordEvent options
          { filename := some saved.filename, reason := none, sourceUrl := item.url
            status := if saved.created then "committed" else "exists", title
            urlFingerprint := env.sha256Hex item.url }

/-- The `catch` clause; an event that cannot be recorded is logged and no more. -/
def archiveFailed (env : ArchiveEnv) (options : ArchiverOptions) (item : ArticleItem)
    (writeStarted : Bool) (e : ArchiveError) : ArchiveProg DeliveryResult :=
  (recordEvent options
      { filename := none, reason := some (safeErrorCode e), sourceUrl := item.url
        status := if writeStarted then "uncertain" else "failed", title := item.title.getD ""
        urlFingerprint := env.sha256Hex item.url }).bind fun _ =>
    .ret (.ok (.fail (!writeStarted) (some (safeFailureReasonCode e)) e.upstreamStatus))

/-- After the write. -/
def afterWrite (env : ArchiveEnv) (options : ArchiverOptions) (item : ArticleItem) :
    Except ArchiveError Unit → ArchiveProg DeliveryResult
  | .error e => archiveFailed env options item true e
  | .ok () => .ret (.ok .ok)

/-- Before the write, or instead of it. -/
def afterPrepare (env : ArchiveEnv) (options : ArchiverOptions) (item : ArticleItem) :
    Except ArchiveError (Option (ArticleFile × String)) → ArchiveProg DeliveryResult
  | .error e => archiveFailed env options item false e
  | .ok none => .ret (.ok .ok)
  | .ok (some (file, title)) =>
    (write env options item file title).bind (afterWrite env options item)

/-- The archiver that `createArticleArchiver(options)` makes. -/
def archiveArticle (env : ArchiveEnv) (options : ArchiverOptions) (item : ArticleItem) :
    ArchiveProg DeliveryResult :=
  (prepare env options item).bind (afterPrepare env options item)

end InboxServer
