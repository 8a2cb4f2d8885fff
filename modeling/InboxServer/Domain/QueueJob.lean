import InboxServer.Domain.Json

/-!
# Queue jobs

The messages of the queue (`packages/domain/src/queue-job.ts`): their types, `parseQueueJob`, which
every boundary calls on what it receives, and the JSON that a job is sent as.

zod is not part of the repository. What the schemas take from it (the string formats and the text
of an error) is a parameter, `Zod`; the schemas themselves are definitions.

* `parseQueueJob_valid` — what is parsed meets the schemas
* `parseQueueJob_toJson` — a valid job, sent as JSON, parses to itself
-/

namespace InboxServer

/-! ## Types -/

inductive SourceName where
  | telegram | dida | githubStars | zhihu | bilibili | bilibiliToview | inoreader | youtube
  | xBookmarks | xLikes
  deriving DecidableEq

inductive TriggeredBy where
  | schedule | manual | shadow
  deriving DecidableEq

inductive JobKind where
  | collectSource | dispatchItem
  deriving DecidableEq

inductive ItemKind where
  | link | text | file | article
  deriving DecidableEq

inductive DispatchItem where
  | link (tags : Option (List String)) (title : Option String) (url : String)
  | text (content : String) (tags : Option (List String))
  | file (localPath objectKey : Option String) (remoteName : String)
  | article (requestedAt : String) (tags : Option (List String)) (title : Option String)
      (url : String)
  deriving DecidableEq

def DispatchItem.itemKind : DispatchItem → ItemKind
  | .link .. => .link
  | .text .. => .text
  | .file .. => .file
  | .article .. => .article

inductive JobPayload where
  | collectSource (shadow : Bool) (source : SourceName) (triggeredBy : TriggeredBy)
  | dispatchItem (item : DispatchItem)
  deriving DecidableEq

/-- A job. `schemaVersion` is the literal 1 in the schema, so it is not a field. -/
structure QueueJob where
  createdAt : String
  dedupeKey : String
  jobId : String
  payload : JobPayload
  deriving DecidableEq

def JobPayload.kind : JobPayload → JobKind
  | .collectSource .. => .collectSource
  | .dispatchItem _ => .dispatchItem

def QueueJob.kind (job : QueueJob) : JobKind := job.payload.kind

def QueueJob.schemaVersion (_ : QueueJob) : Nat := 1

/-- `job.kind === "dispatch-item" ? job.payload.itemKind : null` -/
def QueueJob.itemKind (job : QueueJob) : Option ItemKind :=
  match job.payload with
  | .collectSource .. => none
  | .dispatchItem item => some item.itemKind

/-! ## Names -/

def SourceName.name : SourceName → String
  | .telegram => "telegram"
  | .dida => "dida"
  | .githubStars => "github_stars"
  | .zhihu => "zhihu"
  | .bilibili => "bilibili"
  | .bilibiliToview => "bilibili_toview"
  | .inoreader => "inoreader"
  | .youtube => "youtube"
  | .xBookmarks => "x_bookmarks"
  | .xLikes => "x_likes"

def sourceNames : List SourceName :=
  [.telegram, .dida, .githubStars, .zhihu, .bilibili, .bilibiliToview, .inoreader, .youtube,
    .xBookmarks, .xLikes]

def TriggeredBy.name : TriggeredBy → String
  | .schedule => "schedule"
  | .manual => "manual"
  | .shadow => "shadow"

def JobKind.name : JobKind → String
  | .collectSource => "collect-source"
  | .dispatchItem => "dispatch-item"

def ItemKind.name : ItemKind → String
  | .link => "link"
  | .text => "text"
  | .file => "file"
  | .article => "article"

def SourceName.ofText? (s : String) : Option SourceName := sourceNames.find? fun n => n.name = s

def TriggeredBy.ofText? (s : String) : Option TriggeredBy :=
  [TriggeredBy.schedule, .manual, .shadow].find? fun n => n.name = s

theorem SourceName.ofText?_name (n : SourceName) : SourceName.ofText? n.name = some n := by
  cases n <;> decide

theorem TriggeredBy.ofText?_name (n : TriggeredBy) : TriggeredBy.ofText? n.name = some n := by
  cases n <;> decide

/-! ## The schemas -/

/-- What the schemas take from zod. `url` returns the accepted value, which zod trims. -/
structure Zod where
  uuid : String → Bool
  datetime : String → Bool
  url : String → Option String
  /-- The message of the `ZodError` that a rejected input raises. -/
  issueText : Json → String

/-- What the proofs use of zod's formats. -/
structure Zod.Lawful (zod : Zod) : Prop where
  /-- A URL that was accepted once is accepted again as it is. -/
  url_idem : ∀ s u, zod.url s = some u → zod.url u = some u
  /-- A UUID is made of hexadecimal digits and hyphens. -/
  uuid_noNul : ∀ s, zod.uuid s = true → '\u0000' ∉ s.toList
  uuid_ne_empty : ∀ s, zod.uuid s = true → s ≠ ""

/-- `z.object({...}).strict()`: no field but the named ones. -/
def strict (names : List String) (fields : Fields) : Bool := fields.all fun f => f.1 ∈ names

/-- An optional field: absent, or accepted by the schema of its value. -/
def optionalField {α : Type} (parse : Json → Option α) : Option Json → Option (Option α)
  | none => some none
  | some value => (parse value).map some

/-- `z.string()` -/
def parseString : Json → Option String
  | .str s => some s
  | _ => none

/-- `z.array(z.string().min(1))` -/
def parseTags : Json → Option (List String)
  | .arr items => items.mapM Json.nonEmptyString?
  | _ => none

def parseBool : Json → Option Bool
  | .bool b => some b
  | _ => none

/-- A string with a format that accepts or refuses it. -/
def parseFormat (format : String → Bool) : Json → Option String
  | .str s => if format s then some s else none
  | _ => none

/-- `z.string().url()` -/
def parseUrl (zod : Zod) : Json → Option String
  | .str s => zod.url s
  | _ => none

def parseLinkItem (zod : Zod) (fields : Fields) : Option DispatchItem := do
  guard (strict ["itemKind", "tags", "title", "url"] fields)
  let tags ← optionalField parseTags (fields.lookup "tags")
  let title ← optionalField parseString (fields.lookup "title")
  let url ← (fields.lookup "url").bind (parseUrl zod)
  return .link tags title url

def parseTextItem (fields : Fields) : Option DispatchItem := do
  guard (strict ["content", "itemKind", "tags"] fields)
  let content ← (fields.lookup "content").bind Json.nonEmptyString?
  let tags ← optionalField parseTags (fields.lookup "tags")
  return .text content tags

/-- A file has exactly one of the two storage locators. -/
def parseFileItem (fields : Fields) : Option DispatchItem := do
  guard (strict ["itemKind", "localPath", "objectKey", "remoteName"] fields)
  let localPath ← optionalField Json.nonEmptyString? (fields.lookup "localPath")
  let objectKey ← optionalField Json.nonEmptyString? (fields.lookup "objectKey")
  let remoteName ← (fields.lookup "remoteName").bind Json.nonEmptyString?
  guard (localPath.isSome != objectKey.isSome)
  return .file localPath objectKey remoteName

def parseArticleItem (zod : Zod) (fields : Fields) : Option DispatchItem := do
  guard (strict ["itemKind", "requestedAt", "tags", "title", "url"] fields)
  let requestedAt ← (fields.lookup "requestedAt").bind (parseFormat zod.datetime)
  let tags ← optionalField parseTags (fields.lookup "tags")
  let title ← optionalField parseString (fields.lookup "title")
  let url ← (fields.lookup "url").bind (parseUrl zod)
  return .article requestedAt tags title url

/-- `dispatchItemSchema`, discriminated by `itemKind`. -/
def parseDispatchItem (zod : Zod) : Json → Option DispatchItem
  | .obj fields =>
    match fields.lookup "itemKind" with
    | some (.str "link") => parseLinkItem zod fields
    | some (.str "text") => parseTextItem fields
    | some (.str "file") => parseFileItem fields
    | some (.str "article") => parseArticleItem zod fields
    | _ => none
  | _ => none

def parseCollectPayload : Json → Option JobPayload
  | .obj fields => do
    guard (strict ["shadow", "source", "triggeredBy"] fields)
    let shadow ← (fields.lookup "shadow").bind parseBool
    let source ← ((fields.lookup "source").bind parseString).bind SourceName.ofText?
    let triggeredBy ← ((fields.lookup "triggeredBy").bind parseString).bind TriggeredBy.ofText?
    return .collectSource shadow source triggeredBy
  | _ => none

/-- `queueJobSchema`, discriminated by `kind`. -/
def parsePayload (zod : Zod) (kind payload : Json) : Option JobPayload :=
  match kind with
  | .str "collect-source" => parseCollectPayload payload
  | .str "dispatch-item" => (parseDispatchItem zod payload).map .dispatchItem
  | _ => none

/-- `z.literal(1)` -/
def parseVersion : Json → Option Unit
  | .num text => if text = "1" then some () else none
  | _ => none

/-- `parseQueueJob(input)`; `none` is the `ZodError` that it throws. -/
def parseQueueJob (zod : Zod) : Json → Option QueueJob
  | .obj fields => do
    guard (strict ["createdAt", "dedupeKey", "jobId", "schemaVersion", "kind", "payload"] fields)
    let createdAt ← (fields.lookup "createdAt").bind (parseFormat zod.datetime)
    let dedupeKey ← (fields.lookup "dedupeKey").bind Json.nonEmptyString?
    let jobId ← (fields.lookup "jobId").bind (parseFormat zod.uuid)
    (fields.lookup "schemaVersion").bind parseVersion
    let kind ← fields.lookup "kind"
    let payload ← (fields.lookup "payload").bind (parsePayload zod kind)
    return { createdAt, dedupeKey, jobId, payload }
  | _ => none

/-! ## A job as JSON -/

/-- The field of an optional value, left out when it is `undefined`. -/
def jsonField (name : String) : Option Json → Fields
  | none => []
  | some value => [(name, value)]

def jsonTags (tags : List String) : Json := .arr (tags.map .str)

def DispatchItem.toJson : DispatchItem → Json
  | .link tags title url =>
    .obj <| [("itemKind", .str "link")] ++ jsonField "tags" (tags.map jsonTags)
      ++ jsonField "title" (title.map .str) ++ [("url", .str url)]
  | .text content tags =>
    .obj <| [("content", .str content), ("itemKind", .str "text")]
      ++ jsonField "tags" (tags.map jsonTags)
  | .file localPath objectKey remoteName =>
    .obj <| [("itemKind", .str "file")] ++ jsonField "localPath" (localPath.map .str)
      ++ jsonField "objectKey" (objectKey.map .str) ++ [("remoteName", .str remoteName)]
  | .article requestedAt tags title url =>
    .obj <| [("itemKind", .str "article"), ("requestedAt", .str requestedAt)]
      ++ jsonField "tags" (tags.map jsonTags) ++ jsonField "title" (title.map .str)
      ++ [("url", .str url)]

def JobPayload.toJson : JobPayload → Json
  | .collectSource shadow source triggeredBy =>
    .obj [("shadow", .bool shadow), ("source", .str source.name),
      ("triggeredBy", .str triggeredBy.name)]
  | .dispatchItem item => item.toJson

/-- The job as `JSON.stringify` writes it, its fields in the order of the schema. -/
def QueueJob.toJson (job : QueueJob) : Json :=
  .obj [("createdAt", .str job.createdAt), ("dedupeKey", .str job.dedupeKey),
    ("jobId", .str job.jobId), ("schemaVersion", .num "1"), ("kind", .str job.kind.name),
    ("payload", job.payload.toJson)]

/-- `JSON.stringify(job)` -/
def QueueJob.stringify (job : QueueJob) : String := job.toJson.stringify

/-! ## A parsed job parses again -/

def DispatchItem.Valid (zod : Zod) : DispatchItem → Prop
  | .link tags _ url => (∀ t, tags = some t → "" ∉ t) ∧ zod.url url = some url
  | .text content tags => content ≠ "" ∧ ∀ t, tags = some t → "" ∉ t
  | .file localPath objectKey remoteName =>
    localPath ≠ some "" ∧ objectKey ≠ some "" ∧ remoteName ≠ "" ∧
      localPath.isSome ≠ objectKey.isSome
  | .article requestedAt tags _ url =>
    zod.datetime requestedAt = true ∧ (∀ t, tags = some t → "" ∉ t) ∧ zod.url url = some url

/-- What the schemas check of a job that its type leaves open. -/
structure QueueJob.Valid (zod : Zod) (job : QueueJob) : Prop where
  createdAt : zod.datetime job.createdAt = true
  dedupeKey : job.dedupeKey ≠ ""
  jobId : zod.uuid job.jobId = true
  item : ∀ item, job.payload = .dispatchItem item → item.Valid zod

theorem parseTags_jsonTags {tags : List String} (h : "" ∉ tags) :
    parseTags (jsonTags tags) = some tags := by
  simp only [parseTags, jsonTags]
  induction tags with
  | nil => rfl
  | cons t tags ih =>
    simp only [List.mem_cons, not_or] at h
    simp [List.mapM_cons, Json.nonEmptyString?, Ne.symm h.1, ih h.2]

theorem optionalField_tags {tags : Option (List String)} (h : ∀ t, tags = some t → "" ∉ t) :
    optionalField parseTags (tags.map jsonTags) = some tags := by
  cases tags with
  | none => rfl
  | some t => simp [optionalField, parseTags_jsonTags (h t rfl)]

theorem optionalField_string (title : Option String) :
    optionalField parseString (title.map .str) = some title := by
  cases title <;> rfl

theorem optionalField_nonEmpty {path : Option String} (h : path ≠ some "") :
    optionalField Json.nonEmptyString? (path.map .str) = some path := by
  cases path with
  | none => rfl
  | some p =>
    have hp : p ≠ "" := fun he => h (by rw [he])
    simp [optionalField, Json.nonEmptyString?, hp]

/-- A valid item is read as it was written. -/
theorem parseDispatchItem_toJson {zod : Zod} {item : DispatchItem} (h : item.Valid zod) :
    parseDispatchItem zod item.toJson = some item := by
  cases item with
  | link tags title url =>
    obtain ⟨htags, hurl⟩ := h
    have ht := optionalField_tags htags
    have hs := optionalField_string title
    cases tags <;> cases title <;>
      simp_all [DispatchItem.toJson, parseDispatchItem, parseLinkItem, jsonField, strict,
        List.lookup, parseUrl]
  | text content tags =>
    obtain ⟨hcontent, htags⟩ := h
    have ht := optionalField_tags htags
    cases tags <;>
      simp_all [DispatchItem.toJson, parseDispatchItem, parseTextItem, jsonField, strict,
        List.lookup, Json.nonEmptyString?]
  | file localPath objectKey remoteName =>
    obtain ⟨hpath, hkey, hname, hone⟩ := h
    have hp := optionalField_nonEmpty hpath
    have hk := optionalField_nonEmpty hkey
    cases localPath <;> cases objectKey <;>
      simp_all [DispatchItem.toJson, parseDispatchItem, parseFileItem, jsonField, strict,
        List.lookup, Json.nonEmptyString?]
  | article requestedAt tags title url =>
    obtain ⟨hdate, htags, hurl⟩ := h
    have ht := optionalField_tags htags
    have hs := optionalField_string title
    cases tags <;> cases title <;>
      simp_all [DispatchItem.toJson, parseDispatchItem, parseArticleItem, jsonField, strict,
        List.lookup, parseUrl, parseFormat]

theorem parsePayload_toJson {zod : Zod} {payload : JobPayload}
    (h : ∀ item, payload = .dispatchItem item → item.Valid zod) :
    parsePayload zod (.str payload.kind.name) payload.toJson = some payload := by
  cases payload with
  | collectSource shadow source triggeredBy =>
    simp [JobPayload.kind, JobKind.name, JobPayload.toJson, parsePayload, parseCollectPayload, strict,
      List.lookup, parseBool, parseString, SourceName.ofText?_name, TriggeredBy.ofText?_name]
  | dispatchItem item =>
    simp [JobPayload.kind, JobKind.name, JobPayload.toJson, parsePayload,
      parseDispatchItem_toJson (h item rfl)]

/-- A valid job, sent as JSON, parses to itself. -/
theorem parseQueueJob_toJson {zod : Zod} {job : QueueJob} (h : job.Valid zod) :
    parseQueueJob zod job.toJson = some job := by
  have hpayload := parsePayload_toJson h.item
  simp [QueueJob.toJson, QueueJob.kind, parseQueueJob, strict, List.lookup, parseFormat, Json.nonEmptyString?,
    parseVersion, h.createdAt, h.dedupeKey, h.jobId, hpayload]

/-! ## What is parsed is valid -/

/-- A text that is read is not empty. -/
theorem nonEmptyString?_eq_some {value : Json} {s : String}
    (h : value.nonEmptyString? = some s) : s ≠ "" := by
  cases value with
  | str t =>
    simp only [Json.nonEmptyString?] at h
    split at h
    · simp at h
    · next hne => rw [← Option.some.inj h]; exact hne
  | _ => simp [Json.nonEmptyString?] at h

/-- A text of a format is in that format. -/
theorem parseFormat_eq_some {format : String → Bool} {value : Json} {s : String}
    (h : parseFormat format value = some s) : format s = true := by
  cases value with
  | str t =>
    simp only [parseFormat] at h
    split at h
    · next hf => rw [← Option.some.inj h]; exact hf
    · simp at h
  | _ => simp [parseFormat] at h

/-- Tags that are read are not empty. -/
theorem parseTags_eq_some {value : Json} {tags : List String} (h : parseTags value = some tags) :
    "" ∉ tags := by
  cases value with
  | arr items =>
    simp only [parseTags] at h
    induction items generalizing tags with
    | nil => simp_all
    | cons item items ih =>
      simp only [List.mapM_cons, Option.pure_def, Option.bind_eq_bind, Option.bind_eq_some_iff,
        Option.some.injEq] at h
      obtain ⟨s, hs, rest, hrest, rfl⟩ := h
      simp only [List.mem_cons, not_or]
      exact ⟨(nonEmptyString?_eq_some hs).symm, ih hrest⟩
  | _ => simp [parseTags] at h

theorem optionalField_eq_some {α : Type} {parse : Json → Option α} {field : Option Json}
    {o : Option α} (h : optionalField parse field = some o) {a : α} (ha : o = some a) :
    ∃ value, parse value = some a := by
  subst ha
  cases field with
  | none => simp [optionalField] at h
  | some value => exact ⟨value, by simpa [optionalField] using h⟩

theorem optionalTags_valid {field : Option Json} {tags : Option (List String)}
    (h : optionalField parseTags field = some tags) : ∀ t, tags = some t → "" ∉ t := by
  intro t ht
  obtain ⟨value, hvalue⟩ := optionalField_eq_some h ht
  exact parseTags_eq_some hvalue

theorem optionalNonEmpty_valid {field : Option Json} {path : Option String}
    (h : optionalField Json.nonEmptyString? field = some path) : path ≠ some "" := by
  intro hp
  obtain ⟨value, hvalue⟩ := optionalField_eq_some h hp
  exact nonEmptyString?_eq_some hvalue rfl

theorem parseUrl_eq_some {zod : Zod} (hz : zod.Lawful) {value : Json} {url : String}
    (h : parseUrl zod value = some url) : zod.url url = some url := by
  cases value with
  | str s => exact hz.url_idem s url h
  | _ => simp [parseUrl] at h

/-- An item that is read is valid. -/
theorem parseDispatchItem_valid {zod : Zod} (hz : zod.Lawful) {value : Json} {item : DispatchItem}
    (h : parseDispatchItem zod value = some item) : item.Valid zod := by
  unfold parseDispatchItem at h
  split at h
  · next fields =>
    split at h
    · simp only [parseLinkItem, Option.bind_eq_bind, Option.bind_eq_some_iff] at h
      obtain ⟨-, -, tags, htags, title, -, url, ⟨u, -, hurl⟩, hitem⟩ := h
      obtain rfl := Option.some.inj hitem
      exact ⟨optionalTags_valid htags, parseUrl_eq_some hz hurl⟩
    · simp only [parseTextItem, Option.bind_eq_bind, Option.bind_eq_some_iff] at h
      obtain ⟨-, -, content, ⟨c, -, hcontent⟩, tags, htags, hitem⟩ := h
      obtain rfl := Option.some.inj hitem
      exact ⟨nonEmptyString?_eq_some hcontent, optionalTags_valid htags⟩
    · simp only [parseFileItem, Option.bind_eq_bind, Option.bind_eq_some_iff] at h
      obtain ⟨-, -, path, hpath, key, hkey, name, ⟨n, -, hname⟩, hone, hguard, hitem⟩ := h
      obtain rfl := Option.some.inj hitem
      refine ⟨optionalNonEmpty_valid hpath, optionalNonEmpty_valid hkey,
        nonEmptyString?_eq_some hname, ?_⟩
      simpa [guard] using hguard
    · simp only [parseArticleItem, Option.bind_eq_bind, Option.bind_eq_some_iff] at h
      obtain ⟨-, -, date, ⟨d, -, hdate⟩, tags, htags, title, -, url, ⟨u, -, hurl⟩, hitem⟩ := h
      obtain rfl := Option.some.inj hitem
      exact ⟨parseFormat_eq_some hdate, optionalTags_valid htags, parseUrl_eq_some hz hurl⟩
    · simp at h
  · simp at h

/-- `parseQueueJob` returns valid jobs only. -/
theorem parseQueueJob_valid {zod : Zod} (hz : zod.Lawful) {input : Json} {job : QueueJob}
    (h : parseQueueJob zod input = some job) : job.Valid zod := by
  unfold parseQueueJob at h
  split at h
  · next fields =>
    simp only [Option.bind_eq_bind, Option.bind_eq_some_iff] at h
    obtain ⟨-, -, createdAt, ⟨c, -, hcreated⟩, dedupeKey, ⟨d, -, hdedupe⟩, jobId, ⟨j, -, hjob⟩,
      -, -, kind, -, payload, ⟨p, -, hpayload⟩, hresult⟩ := h
    obtain rfl := Option.some.inj hresult
    refine ⟨parseFormat_eq_some hcreated, nonEmptyString?_eq_some hdedupe,
      parseFormat_eq_some hjob, ?_⟩
    rintro item rfl
    unfold parsePayload at hpayload
    split at hpayload
    · unfold parseCollectPayload at hpayload
      split at hpayload
      · simp only [Option.bind_eq_bind, Option.bind_eq_some_iff] at hpayload
        obtain ⟨-, -, _, -, _, -, _, -, hitem⟩ := hpayload
        simp at hitem
      · simp at hpayload
    · rw [Option.map_eq_some_iff] at hpayload
      obtain ⟨item', hitem, heq⟩ := hpayload
      rw [← JobPayload.dispatchItem.inj heq]
      exact parseDispatchItem_valid hz hitem
    · simp at hpayload
  · simp at h

end InboxServer
