import InboxServer.Properties.CollectorRuns

/-!
# Attachments from Telegram

* `telegramRuns_sound` — no attachment is merged with another one or lost, as long as files that are
  not the same have different names
-/

namespace InboxServer

open Infra

/-! ## What is parsed -/

def updateId (raw : Json) : Option Int := integerValue ((Json.record (some raw)).lookup "update_id")

/-- The message of an update. -/
def updateMessage (raw : Json) : Fields :=
  Json.record ((Json.record (some raw)).lookup "message")

def updateFile (raw : Json) : Option TelegramFile := telegramFile (updateMessage raw)

def filesOf (updates : List Json) : List TelegramFile := updates.filterMap updateFile

/-- The items of an update that has no file. -/
def updateItems (isHttpUrl : String → Bool) (raw : Json) : List DispatchItem :=
  if (updateFile raw).isSome then [] else messageItems isHttpUrl (updateMessage raw)

section Parse

variable {isHttpUrl : String → Bool}

/-- An update adds its file and its items, and moves the offset on. -/
theorem parseTelegramUpdate_eq (parse : TelegramParse) (raw : Json) :
    parseTelegramUpdate isHttpUrl parse raw =
      { files := parse.files ++ (updateFile raw).toList
        items := parse.items ++ updateItems isHttpUrl raw
        offset := ((updateId raw).map (max parse.offset)).getD parse.offset } := by
  cases raw with
  | obj update =>
    unfold parseTelegramUpdate updateItems updateFile updateMessage updateId
    simp only [Json.record]
    split
    · next file hfile => simp [hfile]
    · next hfile => simp [hfile]
  | null | bool | num | str | arr =>
    simp [parseTelegramUpdate, updateItems, updateFile, updateMessage, updateId, Json.record,
      telegramFile, fileOf, lastPhoto, fileCandidates, stringValue, messageItems, integerValue]

theorem parseTelegramUpdates_files (isHttpUrl : String → Bool) (updates : List Json) (parse : TelegramParse) :
    (updates.foldl (parseTelegramUpdate isHttpUrl) parse).files = parse.files ++ filesOf updates := by
  induction updates generalizing parse with
  | nil => simp [filesOf]
  | cons raw updates ih =>
    rw [List.foldl_cons, ih, parseTelegramUpdate_eq, filesOf, filesOf, List.filterMap_cons]
    cases updateFile raw <;> simp

theorem parseTelegramUpdates_items (isHttpUrl : String → Bool) (updates : List Json) (parse : TelegramParse) :
    (updates.foldl (parseTelegramUpdate isHttpUrl) parse).items =
      parse.items ++ updates.flatMap (updateItems isHttpUrl) := by
  induction updates generalizing parse with
  | nil => simp
  | cons raw updates ih =>
    rw [List.foldl_cons, ih, parseTelegramUpdate_eq, List.flatMap_cons, List.append_assoc]

/-- The offset is the one before, or the id of an update. -/
theorem parseTelegramUpdates_offset (isHttpUrl : String → Bool) (updates : List Json) (parse : TelegramParse) :
    (updates.foldl (parseTelegramUpdate isHttpUrl) parse).offset = parse.offset ∨
      ∃ raw ∈ updates,
        updateId raw = some (updates.foldl (parseTelegramUpdate isHttpUrl) parse).offset := by
  induction updates generalizing parse with
  | nil => exact Or.inl rfl
  | cons raw updates ih =>
    rw [List.foldl_cons]
    rcases ih (parseTelegramUpdate isHttpUrl parse raw) with hsame | ⟨other, hother, hid⟩
    · rw [hsame, parseTelegramUpdate_eq]
      cases hid : updateId raw with
      | none => exact Or.inl rfl
      | some k =>
        rcases max_choice parse.offset k with hmax | hmax
        · exact Or.inl hmax
        · exact Or.inr ⟨raw, List.mem_cons_self, by rw [hid]; exact congrArg some hmax.symm⟩
    · exact Or.inr ⟨other, List.mem_cons_of_mem _ hother, hid⟩

/-- An item that parses is of the kind that it was. -/
theorem parseDispatchItem_itemKind {zod : Zod} {item parsed : DispatchItem}
    (h : parseDispatchItem zod item.toJson = some parsed) : parsed.itemKind = item.itemKind := by
  have hlink : ∀ fields, parseLinkItem zod fields = some parsed → parsed.itemKind = .link := by
    intro fields hparse
    simp only [parseLinkItem, Option.bind_eq_bind, Option.bind_eq_some_iff] at hparse
    obtain ⟨-, -, tags, -, title, -, url, -, hsome⟩ := hparse
    rw [← Option.some.inj hsome]
    rfl
  have htext : ∀ fields, parseTextItem fields = some parsed → parsed.itemKind = .text := by
    intro fields hparse
    simp only [parseTextItem, Option.bind_eq_bind, Option.bind_eq_some_iff] at hparse
    obtain ⟨-, -, content, -, tags, -, hsome⟩ := hparse
    rw [← Option.some.inj hsome]
    rfl
  have hfile : ∀ fields, parseFileItem fields = some parsed → parsed.itemKind = .file := by
    intro fields hparse
    simp only [parseFileItem, Option.bind_eq_bind, Option.bind_eq_some_iff] at hparse
    obtain ⟨-, -, path, -, key, -, name, -, -, -, hsome⟩ := hparse
    rw [← Option.some.inj hsome]
    rfl
  have harticle : ∀ fields, parseArticleItem zod fields = some parsed →
      parsed.itemKind = .article := by
    intro fields hparse
    simp only [parseArticleItem, Option.bind_eq_bind, Option.bind_eq_some_iff] at hparse
    obtain ⟨-, -, date, -, tags, -, title, -, url, -, hsome⟩ := hparse
    rw [← Option.some.inj hsome]
    rfl
  cases item with
  | link tags title url =>
    cases tags <;> cases title <;> exact hlink _ h
  | text content tags => cases tags <;> exact htext _ h
  | file localPath objectKey remoteName =>
    cases localPath <;> cases objectKey <;> exact hfile _ h
  | article requestedAt tags title url =>
    cases tags <;> cases title <;> exact harticle _ h

end Parse

/-! ## Attachments -/

/-- What Telegram has for a bot. -/
structure TelegramBot where
  /-- The messages that were sent to the bot. -/
  updates : List Json
  /-- The bytes of a file, by its id. -/
  content : String → Bytes
  /-- The bytes at a path that `getFile` has given. -/
  bytesAt : String → Bytes
  positive : ∀ raw ∈ updates, ∀ k, updateId raw = some k → 0 < k

/-- The key of the job of a file; a file with an unsafe name has none. -/
def fileKey (env : Env) (options : CollectorOptions) (file : TelegramFile) : Option String :=
  (sanitizeFilename options file.remoteName).map fun remoteName =>
    createItemDedupeKey env.sha256Hex (.file none none remoteName)

/-- Files that are not the same have different names, once these are safe. -/
def NamesTell (options : CollectorOptions) (files : List TelegramFile) : Prop :=
  ∀ a ∈ files, ∀ b ∈ files, a.fileId ≠ b.fileId → (sanitizeFilename options a.remoteName).isSome →
    sanitizeFilename options a.remoteName ≠ sanitizeFilename options b.remoteName

instance (options : CollectorOptions) (files : List TelegramFile) :
    Decidable (NamesTell options files) := by
  unfold NamesTell
  infer_instance

/-- Where the bytes of a file job are. -/
def locatorOf (job : QueueJob) : Option Locator :=
  match job.payload with
  | .dispatchItem (.file localPath objectKey _) =>
    (objectKey.map .object).or (localPath.map .staged)
  | .dispatchItem (.link ..) | .dispatchItem (.text ..) | .dispatchItem (.article ..)
  | .collectSource .. => none

/-- The jobs of an update have been published. -/
structure UpdatePublished (env : Env) (options : CollectorOptions) (published : List QueueJob)
    (raw : Json) : Prop where
  file : ∀ file, updateFile raw = some file → ∃ job ∈ published,
    fileKey env options file = some job.dedupeKey ∧ (locatorOf job).isSome
  items : ∀ item ∈ updateItems options.isHttpUrl raw, ∃ job ∈ published,
    job.dedupeKey = createItemDedupeKey env.sha256Hex item

/-- No attachment is merged with another one, or lost. -/
structure CollectorStore.Sound (env : Env) (options : CollectorOptions) (bot : TelegramBot)
    (store : CollectorStore) : Prop where
  /-- Different files have jobs with different keys. -/
  keys : ∀ a ∈ filesOf store.delivered, ∀ b ∈ filesOf store.delivered, a.fileId ≠ b.fileId →
    ∀ k, fileKey env options a = some k → fileKey env options b ≠ some k
  /-- A published file job is that of a file, and has the bytes of the file that it is for. -/
  own : ∀ job ∈ store.published, ∀ locator, locatorOf job = some locator →
    (∃ file ∈ filesOf store.delivered, fileKey env options file = some job.dedupeKey) ∧
    ∀ file ∈ filesOf store.delivered, fileKey env options file = some job.dedupeKey →
      store.blobs locator = some (bot.content file.fileId)
  /-- The offset has passed an update only if its jobs are out. -/
  passed : ∀ key n, readNumber (store.states key) "offset" = some n → ∀ raw ∈ bot.updates,
    ∀ k, updateId raw = some k → k ≤ n → UpdatePublished env options store.published raw

/-! ## Runs -/

/-- What a run has read and stored, and whether its jobs are out. -/
structure TelegramNote where
  offset : Int
  updates : List Json
  stored : List (Locator × Bytes)
  handed : Bool

def TelegramNote.start : TelegramNote := ⟨0, [], [], false⟩

/-- How a note moves with a call and its answer. -/
def TelegramNote.next (note : TelegramNote) : (call : CollectorCall) → call.Answer → TelegramNote
  | .getState _, .ok state =>
    { note with offset := (readNumber state "offset").getD 0, updates := [], stored := [] }
  | .getUpdates .., reply => { note with updates := CollectorStore.updatesOf reply, stored := [] }
  | .upload objectKey bytes, .ok () =>
    { note with stored := (.object objectKey, bytes) :: note.stored }
  | .writeFile localPath bytes, .ok () =>
    { note with stored := (.staged localPath, bytes) :: note.stored }
  | .worker (.publishJobs _), .ok _ => { note with handed := true }
  | _, _ => note

abbrev TelegramRuns (ι : Type) :=
  Watched ι CollectorStore CollectorCall CollectorCall.Answer (Except Thrown JobHandlerResult)
    TelegramNote

/-- Telegram hands out updates of the bot from an offset on, and leaves none out in between. -/
structure TelegramBot.HandsOut (bot : TelegramBot) (offset : Int) (updates : List Json) : Prop where
  sent : ∀ raw ∈ updates, raw ∈ bot.updates
  complete : ∀ raw ∈ bot.updates, ∀ k ∈ updateId raw, offset ≤ k →
    (∃ last ∈ updates, ∃ l ∈ updateId last, k ≤ l) → raw ∈ updates

instance (bot : TelegramBot) (offset : Int) (updates : List Json) :
    Decidable (bot.HandsOut offset updates) :=
  decidable_of_iff
    ((∀ raw ∈ updates, raw ∈ bot.updates) ∧
      ∀ raw ∈ bot.updates, ∀ k ∈ updateId raw, offset ≤ k →
        (∃ last ∈ updates, ∃ l ∈ updateId last, k ≤ l) → raw ∈ updates)
    ⟨fun h => ⟨h.1, h.2⟩, fun h => ⟨h.sent, h.complete⟩⟩

/-- The path in a reply of `getFile`. -/
def pathReply (reply : Except Thrown JsonResponse) : Option String :=
  match jsonReply reply with
  | .ok fileResult => filePathOf fileResult
  | .error _ => none

/-- How Telegram answers. -/
def TelegramBot.Answers (bot : TelegramBot) : (call : CollectorCall) → call.Answer → Prop
  | .getUpdates _ offset, reply => bot.HandsOut offset (CollectorStore.updatesOf reply)
  | .getFile _ fileId, reply => ∀ filePath ∈ pathReply reply,
    bot.bytesAt filePath = bot.content fileId
  | .downloadFile _ filePath, reply => ∀ bytes ∈ (bytesReply reply).toOption,
    bytes = bot.bytesAt filePath
  | _, _ => True

/-- A random key is that of no object yet. -/
def FreshKey (store : CollectorStore) : CollectorCall → Prop
  | .upload objectKey _ => store.blobs (.object objectKey) = none
  | _ => True

/-- The condition on the files that a run gets. -/
def namesTell (options : CollectorOptions) (store : CollectorStore) :
    (call : CollectorCall) → call.Answer → Prop
  | .getUpdates .., reply =>
    NamesTell options (filesOf (store.delivered ++ CollectorStore.updatesOf reply))
  | _, _ => True

/-- The steps that are answered as they are, and meet the condition. -/
def telegramAllows (options : CollectorOptions) (bot : TelegramBot) (_ : TelegramNote)
    (store : CollectorStore) (x : CollectorChoice) (call : CollectorCall) : Prop :=
  bot.Answers call (x.answer call) ∧ FreshKey store call ∧
    namesTell options store call (x.answer call)

instance (bot : TelegramBot) : (call : CollectorCall) → (answer : call.Answer) →
    Decidable (bot.Answers call answer)
  | .getUpdates _ offset, reply =>
    inferInstanceAs (Decidable (bot.HandsOut offset (CollectorStore.updatesOf reply)))
  | .getFile _ fileId, reply => inferInstanceAs (Decidable (∀ filePath ∈ pathReply reply,
      bot.bytesAt filePath = bot.content fileId))
  | .downloadFile _ filePath, reply => inferInstanceAs (Decidable
      (∀ bytes ∈ (bytesReply reply).toOption, bytes = bot.bytesAt filePath))
  | .worker _, _ | .getState _, _ | .arrange _, _ | .upload .., _ | .writeFile .., _
  | .getInboxTasks _, _ | .deleteTask .., _ => isTrue trivial

instance (store : CollectorStore) : (call : CollectorCall) → Decidable (FreshKey store call)
  | .upload objectKey _ => inferInstanceAs (Decidable (store.blobs (.object objectKey) = none))
  | .getUpdates .. | .getFile .. | .downloadFile .. | .worker _ | .getState _ | .arrange _
  | .writeFile .. | .getInboxTasks _ | .deleteTask .. => isTrue trivial

instance (options : CollectorOptions) (store : CollectorStore) : (call : CollectorCall) →
    (answer : call.Answer) → Decidable (namesTell options store call answer)
  | .getUpdates .., reply => inferInstanceAs (Decidable
      (NamesTell options (filesOf (store.delivered ++ CollectorStore.updatesOf reply))))
  | .worker _, _ | .getState _, _ | .arrange _, _ | .getFile .., _ | .downloadFile .., _
  | .upload .., _ | .writeFile .., _ | .getInboxTasks _, _ | .deleteTask .., _ => isTrue trivial

instance (options : CollectorOptions) (bot : TelegramBot) (note : TelegramNote)
    (store : CollectorStore) (x : CollectorChoice) (call : CollectorCall) :
    Decidable (telegramAllows options bot note store x call) := by
  unfold telegramAllows
  infer_instance

/-- Runs of collection jobs, each at its place, on one store. -/
def TelegramRuns.start {ι : Type} (env : Env) (handler : HandlerOptions) (options : CollectorOptions)
    (jobs : ι → QueueJob) (shadow : ι → Bool) (store : CollectorStore) : TelegramRuns ι where
  pool :=
    { shared := store
      procs := fun i => some (collectorRun env handler options (jobs i) (shadow i) .telegram) }
  notes _ := .start

/-- The runs as a machine. -/
def telegramMachine {ι : Type} [DecidableEq ι] :
    Machine (TelegramRuns ι) (ι × CollectorChoice) Unit :=
  Watched.machine CollectorStore.serve fun note _ call answer _ => note.next call answer

/-! ## What a run keeps to -/

/-- A place for the bytes of a file: any object, or the staged path of its name. -/
def PlaceFor (options : CollectorOptions) (file : TelegramFile) : Locator → Prop
  | .object _ => True
  | .staged localPath => ∃ remoteName, sanitizeFilename options file.remoteName = some remoteName ∧
    localPath = stagedPath options remoteName

/-- What a run of the collector keeps to. -/
def telegramContract (env : Env) (options : CollectorOptions) (bot : TelegramBot) :
    Contract CollectorCall CollectorCall.Answer TelegramNote where
  asks note
    | .getState _ => note.handed = false
    | .getUpdates _ offset => note.handed = false ∧ offset = note.offset + 1
    | .arrange _ | .getFile .. | .downloadFile .. => True
    | .upload _ bytes => ∃ file ∈ filesOf note.updates, bytes = bot.content file.fileId
    | .writeFile localPath bytes => ∃ file ∈ filesOf note.updates,
      bytes = bot.content file.fileId ∧ PlaceFor options file (.staged localPath)
    | .worker (.publishJobs jobs) =>
      (∀ raw ∈ note.updates, UpdatePublished env options jobs raw) ∧
      ∀ job ∈ jobs, ∀ locator, locatorOf job = some locator → ∃ file ∈ filesOf note.updates,
        fileKey env options file = some job.dedupeKey ∧ PlaceFor options file locator ∧
          (locator, bot.content file.fileId) ∈ note.stored
    | .worker (.putState _ value) => ∀ n, readNumber (some value) "offset" = some n →
      note.handed = true ∧ (n = note.offset ∨ ∃ last ∈ note.updates, updateId last = some n)
    | .worker _ => True
    | .getInboxTasks _ | .deleteTask .. => False
  learns note call answer note' := note' = note.next call answer ∧ bot.Answers call answer

/-- The item of a file with the given place and name. -/
def itemAt (remoteName : String) : Locator → DispatchItem
  | .object objectKey => .file none (some objectKey) remoteName
  | .staged localPath => .file (some localPath) none remoteName

/-- The item is that of the file, and the run has stored the bytes of the file at its place. -/
def ItemOf (options : CollectorOptions) (bot : TelegramBot) (stored : List (Locator × Bytes))
    (file : TelegramFile) (item : DispatchItem) : Prop :=
  ∃ remoteName locator, sanitizeFilename options file.remoteName = some remoteName ∧
    item = itemAt remoteName locator ∧ PlaceFor options file locator ∧
    (locator, bot.content file.fileId) ∈ stored

theorem ItemOf.mono {options : CollectorOptions} {bot : TelegramBot}
    {stored stored' : List (Locator × Bytes)} {file : TelegramFile} {item : DispatchItem}
    (h : ItemOf options bot stored file item) (hsub : stored ⊆ stored') :
    ItemOf options bot stored' file item := by
  obtain ⟨remoteName, locator, hname, hitem, hplace, hstored⟩ := h
  exact ⟨remoteName, locator, hname, hitem, hplace, hsub hstored⟩

section Contract

variable {env : Env} {options : CollectorOptions} {bot : TelegramBot}

/-- How a part of a run that stores files ends: with more of them. -/
def StoresMore (note note' : TelegramNote) : Prop :=
  ∃ stored, note' = { note with stored } ∧ note.stored ⊆ stored

theorem StoresMore.refl (note : TelegramNote) : StoresMore note note := ⟨note.stored, rfl, fun _ h => h⟩

theorem StoresMore.trans {a b c : TelegramNote} (hab : StoresMore a b) (hbc : StoresMore b c) :
    StoresMore a c := by
  obtain ⟨stored, rfl, hsub⟩ := hab
  obtain ⟨stored', rfl, hsub'⟩ := hbc
  exact ⟨stored', rfl, fun _ h => hsub' (hsub h)⟩

/-- A file that is fetched is stored, and its item names it. -/
theorem meets_fetchTelegramFile {note : TelegramNote} (token : String) {file : TelegramFile}
    (hfile : file ∈ filesOf note.updates) :
    (fetchTelegramFile options token file).Meets (telegramContract env options bot)
      (fun note' result => StoresMore note note' ∧ ∀ item, result = .ok item →
        ItemOf options bot note'.stored file item) note := by
  have hthrows : ∀ e, StoresMore note note ∧ ∀ item,
      (Except.error e : Except Thrown DispatchItem) = .ok item →
        ItemOf options bot note.stored file item :=
    fun e => ⟨StoresMore.refl note, fun item h => by cases h⟩
  refine ⟨trivial, fun reply note₁ hnote => ?_⟩
  obtain ⟨hsame, hpath⟩ := hnote
  rw [show note₁ = note from hsame]
  -- getFile answers the path under which the bytes are read
  cases hreply : jsonReply reply with
  | error e =>
    simp only [hreply]
    exact hthrows e
  | ok fileResult =>
    simp only [hreply]
    split
    · exact hthrows _
    · next filePath hfilePath =>
      refine ⟨trivial, fun reply note' hnote => ?_⟩
      obtain ⟨hsame, hbytes⟩ := hnote
      rw [show note' = note from hsame]
      cases hreply' : bytesReply reply with
      | error e =>
        simp only [hreply']
        exact hthrows e
      | ok bytes =>
        have hcontent : bytes = bot.content file.fileId :=
          (hbytes bytes (by rw [hreply']; rfl)).trans
            (hpath filePath (by rw [pathReply, hreply]; exact hfilePath))
        simp only [hreply']
        split
        · exact hthrows _
        · next remoteName hname =>
          -- they are stored in the bucket where there is one, and staged on disk elsewhere
          unfold storeTelegramFile
          split
          · refine ⟨trivial, fun uuid note' hnote => ?_⟩
            rw [show note' = note from hnote.1]
            refine ⟨⟨file, hfile, hcontent⟩, fun reply note'' hnote => ?_⟩
            obtain ⟨rfl, -⟩ := hnote
            cases reply with
            | error e => exact hthrows e
            | ok _ =>
              refine ⟨⟨_, rfl, List.subset_cons_self _ _⟩, ?_⟩
              rintro item ⟨rfl⟩
              refine ⟨remoteName, .object ("telegram/" ++ uuid), hname, rfl, trivial, ?_⟩
              rw [← hcontent]
              exact List.mem_cons_self
          · have hplace : PlaceFor options file (.staged (stagedPath options remoteName)) :=
              ⟨remoteName, hname, rfl⟩
            refine ⟨⟨file, hfile, hcontent, hplace⟩, fun reply note' hnote => ?_⟩
            obtain ⟨rfl, -⟩ := hnote
            cases reply with
            | error e => exact hthrows e
            | ok _ =>
              refine ⟨⟨_, rfl, List.subset_cons_self _ _⟩, ?_⟩
              rintro item ⟨rfl⟩
              refine ⟨remoteName, .staged (stagedPath options remoteName), hname, rfl, hplace, ?_⟩
              rw [← hcontent]
              exact List.mem_cons_self

/-- What the promises of some places have come to. -/
structure SettledFor (options : CollectorOptions) (bot : TelegramBot)
    (stored : List (Locator × Bytes)) (files : List TelegramFile) (places : List Nat)
    (settled : Settled) : Prop where
  items : ∀ i item, (i, Except.ok item) ∈ settled →
    ∃ file, files[i]? = some file ∧ ItemOf options bot stored file item
  all : ∀ i ∈ places, i < files.length → (settled.lookup i).isSome

/-- One more file has settled. -/
theorem SettledFor.snoc {stored stored' : List (Locator × Bytes)} {files : List TelegramFile}
    {places : List Nat} {settled : Settled} {i : Nat} {file : TelegramFile}
    {result : Except Thrown DispatchItem}
    (h : SettledFor options bot stored files places settled) (hsub : stored ⊆ stored')
    (hfile : files[i]? = some file)
    (hresult : ∀ item, result = .ok item → ItemOf options bot stored' file item) :
    SettledFor options bot stored' files (places ++ [i]) ((i, result) :: settled) where
  items j item hmem := by
    rcases List.mem_cons.mp hmem with hnew | hold
    · obtain ⟨rfl, hsame⟩ := Prod.mk.inj hnew
      exact ⟨file, hfile, hresult item hsame.symm⟩
    · obtain ⟨found, hfound, hitem⟩ := h.items j item hold
      exact ⟨found, hfound, hitem.mono hsub⟩
  all j hj hlt := by
    by_cases hsame : j = i
    · simp [hsame]
    · have hold : j ∈ places := by simpa [hsame] using hj
      have hne : (j == i) = false := by simpa using hsame
      rw [List.lookup_cons, hne]
      exact h.all j hold hlt

/-- The files are fetched in the order in which their promises settle. -/
theorem meets_fetchTelegramFiles {note : TelegramNote} (token : String)
    {files : List TelegramFile} (order places : List Nat) {settled : Settled}
    (hfiles : ∀ file ∈ files, file ∈ filesOf note.updates)
    (h : SettledFor options bot note.stored files places settled) :
    (fetchTelegramFiles options token files order settled).Meets (telegramContract env options bot)
      (fun note' settled' => StoresMore note note' ∧
        SettledFor options bot note'.stored files (places ++ order) settled') note := by
  induction order generalizing note places settled with
  | nil =>
    rw [List.append_nil]
    exact ⟨StoresMore.refl note, h⟩
  | cons i order ih =>
    rw [List.append_cons]
    unfold fetchTelegramFiles
    split
    · next hnone =>
      refine ih _ hfiles ⟨h.items, fun j hj hlt => ?_⟩
      rcases List.mem_append.mp hj with hold | hnew
      · exact h.all j hold hlt
      · rw [List.mem_singleton.mp hnew] at hlt
        exact absurd (List.getElem?_eq_none_iff.mp hnone) (by omega)
    · next file hfile =>
      refine Prog.Meets.bind
        ((meets_fetchTelegramFile token (hfiles file (List.mem_of_getElem? hfile))).mono ?_)
      rintro note' result ⟨⟨stored, rfl, hsub⟩, hresult⟩
      refine (@ih { note with stored } _ _ hfiles (h.snoc hsub hfile hresult)).mono ?_
      rintro note'' settled' ⟨hmore, hsettled⟩
      exact ⟨StoresMore.trans ⟨stored, rfl, hsub⟩ hmore, hsettled⟩

omit env options bot in
theorem mem_of_lookup {settled : Settled} {i : Nat} {result : Except Thrown DispatchItem}
    (h : settled.lookup i = some result) : (i, result) ∈ settled := by
  obtain ⟨before, after, rfl, -⟩ := List.lookup_eq_some_iff.mp h
  exact List.mem_append_right _ List.mem_cons_self

/-- When no promise has failed, each file has its item, and each item is that of a file. -/
theorem promiseAll_ok {stored : List (Locator × Bytes)} {files : List TelegramFile}
    {order : List Nat} {settled : Settled} {items : List DispatchItem}
    (horder : order.Perm (List.range files.length))
    (h : SettledFor options bot stored files order settled)
    (hitems : promiseAll files.length settled = .ok items) :
    (∀ file ∈ files, ∃ item ∈ items, ItemOf options bot stored file item) ∧
      ∀ item ∈ items, ∃ file ∈ files, ItemOf options bot stored file item := by
  unfold promiseAll at hitems
  split at hitems
  · cases hitems
  · next hnone =>
    obtain rfl := Except.ok.inj hitems
    have hfulfilled : ∀ e ∈ settled, ∃ item, e.2 = .ok item := by
      intro e he
      have hnot := List.findSome?_eq_none_iff.mp hnone e (List.mem_reverse.mpr he)
      obtain ⟨i, result⟩ := e
      cases result with
      | error e => cases hnot
      | ok item => exact ⟨item, rfl⟩
    constructor
    · intro file hfile
      obtain ⟨i, hlt, hget⟩ := List.mem_iff_getElem.mp hfile
      obtain ⟨result, hlookup⟩ := Option.isSome_iff_exists.mp
        (h.all i (horder.mem_iff.mpr (List.mem_range.mpr hlt)) hlt)
      have hmem := mem_of_lookup hlookup
      obtain ⟨item, rfl⟩ := hfulfilled _ hmem
      obtain ⟨found, hfound, hitem⟩ := h.items i item hmem
      refine ⟨item, List.mem_filterMap.mpr ⟨i, List.mem_range.mpr hlt, by rw [hlookup]⟩, ?_⟩
      rw [List.getElem?_eq_getElem hlt, hget] at hfound
      rw [Option.some.inj hfound]
      exact hitem
    · intro item hitem
      obtain ⟨i, -, hsome⟩ := List.mem_filterMap.mp hitem
      split at hsome
      · next found hlookup =>
        obtain rfl := Option.some.inj hsome
        obtain ⟨file, hfile, hitem⟩ := h.items i found (mem_of_lookup hlookup)
        exact ⟨file, List.mem_of_getElem? hfile, hitem⟩
      · cases hsome

/-! ### The result of a collection -/

/-- The result of a collection, for what the run has read and stored. -/
structure ResultOf (options : CollectorOptions) (bot : TelegramBot) (note : TelegramNote)
    (result : CollectionResult) : Prop where
  items : ∃ fileItems, result.items =
      note.updates.flatMap (updateItems options.isHttpUrl) ++ fileItems ∧
    (∀ file ∈ filesOf note.updates, ∃ item ∈ fileItems, ItemOf options bot note.stored file item) ∧
    ∀ item ∈ fileItems, ∃ file ∈ filesOf note.updates, ItemOf options bot note.stored file item
  states : ∀ key value, (key, value) ∈ result.stateUpdates →
    ∀ n, readNumber (some value) "offset" = some n →
      n = note.offset ∨ ∃ last ∈ note.updates, updateId last = some n

omit env bot in
/-- An offset that was written is read. -/
theorem readNumber_offset (n : Int) :
    readNumber (some (.obj [("offset", .num (toString n))])) "offset" = some n :=
  readInteger_toString n

/-- The result of a run has an item for each file and each text. -/
theorem resultOf_telegramResult {stateKey : String} {payload : Json} {offset : Int}
    {stored : List (Locator × Bytes)} {fileItems : List DispatchItem} {handed : Bool}
    (hitems : (∀ file ∈ filesOf (resultList payload),
        ∃ item ∈ fileItems, ItemOf options bot stored file item) ∧
      ∀ item ∈ fileItems, ∃ file ∈ filesOf (resultList payload), ItemOf options bot stored file item) :
    ResultOf options bot ⟨offset, resultList payload, stored, handed⟩
      (telegramResult stateKey offset (parseTelegramUpdates options.isHttpUrl payload offset)
        fileItems) := by
  have hparsed := parseTelegramUpdates_items options.isHttpUrl (resultList payload)
    { files := [], items := [], offset }
  have hoffset := parseTelegramUpdates_offset options.isHttpUrl (resultList payload)
    { files := [], items := [], offset }
  refine ⟨⟨fileItems, ?_, hitems⟩, ?_⟩
  · show (parseTelegramUpdates options.isHttpUrl payload offset).items ++ fileItems = _
    rw [parseTelegramUpdates, hparsed, List.nil_append]
  · intro key value hmem n hn
    unfold telegramResult at hmem
    dsimp only at hmem
    split at hmem
    · rw [List.mem_singleton] at hmem
      obtain ⟨rfl, rfl⟩ := Prod.mk.inj hmem
      rw [readNumber_offset] at hn
      obtain rfl := Option.some.inj hn
      exact hoffset
    · cases hmem

/-- A run that returns has its updates in its result. -/
theorem meets_collectTelegram {note : TelegramNote} (hfree : note.handed = false) :
    (collectTelegram env options).Meets (telegramContract env options bot)
      (fun note' reply => note'.handed = false ∧ ∀ result, reply = .ok result →
        ResultOf options bot note' result) note := by
  unfold collectTelegram
  split
  · exact ⟨hfree, fun _ h => by cases h⟩
  · refine ⟨hfree, fun reply note₁ hnote => ?_⟩
    cases reply with
    | error e =>
      rw [show note₁ = note from hnote.1]
      exact ⟨hfree, fun _ h => by cases h⟩
    | ok state =>
      obtain ⟨rfl, -⟩ := hnote
      refine ⟨⟨hfree, rfl⟩, fun reply note₂ hnote => ?_⟩
      obtain ⟨rfl, -⟩ := hnote
      cases hreply : jsonReply reply with
      | error e =>
        simp only [TelegramNote.next, hreply]
        exact ⟨hfree, fun _ h => by cases h⟩
      | ok payload =>
        simp only [TelegramNote.next, CollectorStore.updatesOf, hreply]
        refine ⟨trivial, fun order note₃ hnote => ?_⟩
        obtain ⟨rfl, -⟩ := hnote
        have hfiles : (parseTelegramUpdates options.isHttpUrl payload
            ((readNumber state "offset").getD 0)).files = filesOf (resultList payload) := by
          rw [parseTelegramUpdates, parseTelegramUpdates_files, List.nil_append]
        refine Prog.Meets.bind ((meets_fetchTelegramFiles _ order.1 [] ?_ ?_).mono ?_)
        · intro file hfile
          rw [hfiles] at hfile
          exact hfile
        · exact ⟨fun i item h => (by cases h), fun i h => (by cases h)⟩
        · rintro note₄ settled ⟨⟨stored, rfl, -⟩, hsettled⟩
          rw [List.nil_append] at hsettled
          cases hall : promiseAll
              (parseTelegramUpdates options.isHttpUrl payload
                ((readNumber state "offset").getD 0)).files.length settled with
          | error e => exact ⟨hfree, fun _ h => by cases h⟩
          | ok fileItems =>
            refine ⟨hfree, ?_⟩
            rintro result ⟨rfl⟩
            refine resultOf_telegramResult ?_
            rw [← hfiles]
            exact promiseAll_ok order.2 hsettled hall

/-- The run of the handler and the run down to the calls of the collector, side by side. -/
inductive TelegramSide (options : CollectorOptions) (bot : TelegramBot) :
    CollectorProg Unit → CollectNote → TelegramNote → Prop
  | before {note} (free : note.handed = false) :
      TelegramSide options bot (.ret (.ok ())) ⟨none, false⟩ note
  | after {result note} (made : ResultOf options bot note result) :
      TelegramSide options bot (.ret (.ok ())) ⟨some result, note.handed⟩ note

theorem itemKind_of_locatorOf {job : QueueJob} {item : DispatchItem} {locator : Locator}
    (hpayload : job.payload = .dispatchItem item) (h : locatorOf job = some locator) :
    item.itemKind = .file := by
  unfold locatorOf at h
  rw [hpayload] at h
  cases item with
  | file => rfl
  | link | text | article => cases h

/-- An update without a file has no file among its items. -/
theorem itemKind_updateItems {isHttpUrl : String → Bool} {raw : Json} {item : DispatchItem}
    (h : item ∈ updateItems isHttpUrl raw) : item.itemKind ≠ .file := by
  unfold updateItems messageItems at h
  split at h
  · cases h
  · split at h
    · dsimp only at h
      split at h
      · cases h
      · split at h
        · rw [List.mem_singleton.mp h]
          exact fun hkind => by cases hkind
        · obtain ⟨pair, -, rfl⟩ := List.mem_map.mp h
          exact fun hkind => by cases hkind
    · cases h

/-- The jobs of a collection are those of its updates. -/
theorem ResultOf.jobs (hfree : env.CollisionFree) {note : TelegramNote} {result : CollectionResult} {jobs : List QueueJob}
    (hresult : ResultOf options bot note result) (hjobs : JobsOf env result.items jobs) :
    (telegramContract env options bot).asks note (.worker (.publishJobs jobs)) := by
  obtain ⟨⟨fileItems, hitems, hfiles, honly⟩, -⟩ := hresult
  have hkey : ∀ file item, ItemOf options bot note.stored file item →
      fileKey env options file = some (createItemDedupeKey env.sha256Hex item) := by
    rintro file item ⟨remoteName, locator, hname, rfl, -, -⟩
    rw [fileKey, hname]
    cases locator <;> rfl
  -- a job of a file is made of the item of a file of the collection
  have hfileJob : ∀ job ∈ jobs, ∀ item, item ∈ result.items → item.itemKind = .file →
      job.dedupeKey = createItemDedupeKey env.sha256Hex item →
      (∃ parsed, parseDispatchItem env.zod item.toJson = some parsed ∧
        job.payload = .dispatchItem parsed) →
      ∃ file ∈ filesOf note.updates, ∃ locator, locatorOf job = some locator ∧
        fileKey env options file = some job.dedupeKey ∧ PlaceFor options file locator ∧
          (locator, bot.content file.fileId) ∈ note.stored := by
    rintro job hjob item hitem hkind hsame ⟨parsed, hparsed, hpayload⟩
    rw [hitems] at hitem
    rcases List.mem_append.mp hitem with hplain | hfile
    · obtain ⟨raw, -, hraw⟩ := List.mem_flatMap.mp hplain
      exact absurd hkind (itemKind_updateItems hraw)
    · obtain ⟨file, hmem, hof⟩ := honly item hfile
      have hfileKey := hkey file item hof
      obtain ⟨remoteName, place, hname, rfl, hplace, hstored⟩ := hof
      have hparsed' : parsed = itemAt remoteName place := by
        cases place <;> exact parseDispatchItem_file hparsed
      rw [hparsed'] at hpayload
      refine ⟨file, hmem, place, ?_, by rw [hfileKey, hsame], hplace, hstored⟩
      rw [locatorOf, hpayload]
      cases place <;> rfl
  have hlocator : ∀ job ∈ jobs, ∀ locator, locatorOf job = some locator →
      ∃ file ∈ filesOf note.updates, fileKey env options file = some job.dedupeKey ∧
        PlaceFor options file locator ∧ (locator, bot.content file.fileId) ∈ note.stored := by
    intro job hjob locator hlocator
    obtain ⟨item, hitem, hsame, parsed, hparsed, hpayload⟩ := hjobs.only job hjob
    have hkind := itemKind_of_locatorOf hpayload hlocator
    rw [parseDispatchItem_itemKind hparsed] at hkind
    obtain ⟨file, hmem, place, hplace, hrest⟩ :=
      hfileJob job hjob item hitem hkind hsame ⟨parsed, hparsed, hpayload⟩
    obtain rfl := Option.some.inj (hlocator.symm.trans hplace)
    exact ⟨file, hmem, hrest⟩
  refine ⟨fun raw hraw => ⟨fun file hfile => ?_, fun item hitem => ?_⟩, hlocator⟩
  · have hmem : file ∈ filesOf note.updates := List.mem_filterMap.mpr ⟨raw, hraw, hfile⟩
    obtain ⟨item, hitem, hof⟩ := hfiles file hmem
    obtain ⟨job, hjob, hsame⟩ := hjobs.covers item (by
      rw [hitems]
      exact List.mem_append_right _ hitem)
    refine ⟨job, hjob, by rw [hkey file item hof, hsame], ?_⟩
    obtain ⟨item', hitem', hsame', hpayload⟩ := hjobs.only job hjob
    have hkind : item'.itemKind = .file := by
      rw [(createItemDedupeKey_inj hfree (hsame'.symm.trans hsame)).1]
      obtain ⟨remoteName, place, -, rfl, -, -⟩ := hof
      cases place <;> rfl
    obtain ⟨-, -, place, hplace, -⟩ := hfileJob job hjob item' hitem' hkind hsame' hpayload
    rw [hplace]
    rfl
  · refine hjobs.covers item ?_
    rw [hitems]
    exact List.mem_append_left _ (List.mem_flatMap.mpr ⟨raw, hraw, hitem⟩)

/-- A run of the collector keeps to the contract. -/
theorem meets_collectorRun_telegram (hfree : env.CollisionFree) (handler : HandlerOptions) (job : QueueJob) (shadow : Bool) :
    (collectorRun env handler options job shadow .telegram).Meets
      (telegramContract env options bot) (fun _ _ => True) .start := by
  refine (Prog.Meets.expand (TelegramSide options bot) ?_ (.before rfl)
    (meets_collectSource handler job shadow)).mono fun _ _ _ => trivial
  -- each call of the handler is made by the collector or handed to the store
  intro kept note note' call hside hasks
  cases call with
  | collect source =>
    obtain ⟨rfl, rfl⟩ := hasks
    cases hside with
    | before hidle =>
      refine Prog.Meets.bind ((meets_collectTelegram hidle).mono ?_)
      rintro note'' reply ⟨hidle', hreply⟩
      cases reply with
      | error e => exact ⟨_, rfl, .before hidle'⟩
      | ok result =>
        refine ⟨_, rfl, ?_⟩
        rw [← hidle']
        exact .after (hreply result rfl)
  | afterCommit =>
    cases hside with
    | before hidle => exact ⟨_, rfl, .before hidle⟩
    | after hmade => exact ⟨_, rfl, .after hmade⟩
  | publishJobs jobs =>
    obtain ⟨result, hresult, hjobs⟩ := hasks
    cases hside with
    | before => cases hresult
    | after hmade =>
      cases hresult
      refine ⟨hmade.jobs hfree hjobs, fun reply note'' hnote => ?_⟩
      obtain ⟨rfl, -⟩ := hnote
      cases reply with
      | error e => exact ⟨_, rfl, .after hmade⟩
      | ok queued =>
        exact ⟨_, rfl, @TelegramSide.after options bot result { note' with handed := true }
          ⟨hmade.items, hmade.states⟩⟩
  | putState key value =>
    refine ⟨?_, fun reply note'' hnote => ?_⟩
    · rcases hasks with ⟨count, keys, observedAt, rfl⟩ | ⟨result, hresult, hmem, hhanded⟩
      · intro n hn
        cases hn
      · cases hside with
        | before => cases hresult
        | after hmade =>
          cases hresult
          -- the offset is stored only after the jobs were handed out
          exact fun n hn => ⟨hhanded, hmade.states key value hmem n hn⟩
    · rw [show note'' = note' from hnote.1]
      exact ⟨_, rfl, hside⟩
  | consumeRateLimit | consumeRateLimits | startDelivery | awaitDelivery => cases hasks
  | _ =>
    refine ⟨trivial, fun reply note'' hnote => ?_⟩
    rw [show note'' = note' from hnote.1]
    exact ⟨_, rfl, hside⟩

end Contract

/-! ## What holds in between -/

/-- What holds of the store. -/
structure TelegramShared (env : Env) (options : CollectorOptions) (bot : TelegramBot)
    (store : CollectorStore) : Prop where
  names : NamesTell options (filesOf store.delivered)
  own : ∀ job ∈ store.published, ∀ locator, locatorOf job = some locator →
    ∃ file ∈ filesOf store.delivered, fileKey env options file = some job.dedupeKey ∧
      PlaceFor options file locator ∧ store.blobs locator = some (bot.content file.fileId)
  passed : ∀ key n, readNumber (store.states key) "offset" = some n → ∀ raw ∈ bot.updates,
    ∀ k, updateId raw = some k → k ≤ n → UpdatePublished env options store.published raw

/-- What a run knows of the store. -/
structure TelegramKnows (env : Env) (options : CollectorOptions) (bot : TelegramBot)
    (store : CollectorStore) (note : TelegramNote) : Prop where
  offset : ∀ raw ∈ bot.updates, ∀ k, updateId raw = some k → k ≤ note.offset →
    UpdatePublished env options store.published raw
  fetched : ∀ raw ∈ note.updates, raw ∈ store.delivered
  handsOut : bot.HandsOut (note.offset + 1) note.updates
  stored : ∀ locator bytes, (locator, bytes) ∈ note.stored → store.blobs locator = some bytes ∧
    ∃ file ∈ filesOf note.updates, bytes = bot.content file.fileId ∧ PlaceFor options file locator
  handed : note.handed = true → ∀ raw ∈ note.updates,
    UpdatePublished env options store.published raw

section Knows

variable {env : Env} {options : CollectorOptions} {bot : TelegramBot} {store : CollectorStore}
  {note note' : TelegramNote} {x : CollectorChoice} {call : CollectorCall}

/-- What was published stays so. -/
theorem UpdatePublished.mono {published published' : List QueueJob} {raw : Json}
    (h : UpdatePublished env options published raw) (hsub : published ⊆ published') :
    UpdatePublished env options published' raw where
  file file hfile := by
    obtain ⟨job, hjob, hrest⟩ := h.file file hfile
    exact ⟨job, hsub hjob, hrest⟩
  items item hitem := by
    obtain ⟨job, hjob, hrest⟩ := h.items item hitem
    exact ⟨job, hsub hjob, hrest⟩

theorem filesOf_subset {updates updates' : List Json} (h : updates ⊆ updates') :
    filesOf updates ⊆ filesOf updates' := List.filterMap_subset _ h

theorem TelegramBot.HandsOut.nil (offset : Int) : bot.HandsOut offset [] where
  sent raw hraw := by cases hraw
  complete raw _ k _ _ hlast := by
    obtain ⟨last, hlast, -⟩ := hlast
    cases hlast

/-- What was handed out stays handed out. -/
theorem CollectorStore.serve_delivered (x : CollectorChoice) (store : CollectorStore)
    (call : CollectorCall) : store.delivered ⊆ (serve x store call).1.delivered := by
  have heffect := serve_effect x store call
  generalize (serve x store call).1 = after at heffect ⊢
  cases heffect with
  | handsOut => exact List.subset_append_left _ _
  | _ => exact fun _ h => h

/-- The bytes of a file stay where they are: a new object has a new key, and what is staged under the
name of the file has its bytes. -/
theorem blobs_stay (hnames : NamesTell options (filesOf store.delivered))
    (hfetched : note.updates ⊆ store.delivered)
    (hasks : (telegramContract env options bot).asks note call) (hfresh : FreshKey store call)
    {file : TelegramFile} {locator : Locator} (hfile : file ∈ filesOf store.delivered)
    (hplace : PlaceFor options file locator)
    (h : store.blobs locator = some (bot.content file.fileId)) :
    (CollectorStore.serve x store call).1.blobs locator = some (bot.content file.fileId) := by
  have heffect := CollectorStore.serve_effect x store call
  generalize (CollectorStore.serve x store call).1 = after at heffect ⊢
  cases heffect with
  | @uploads objectKey bytes =>
    have hne : locator ≠ .object objectKey := by
      rintro rfl
      rw [show store.blobs (.object objectKey) = none from hfresh] at h
      cases h
    exact (Function.update_of_ne hne _ _).trans h
  | @writes localPath bytes =>
    by_cases hsame : locator = .staged localPath
    · subst hsame
      obtain ⟨other, hother, rfl, hplace'⟩ := hasks
      obtain ⟨name, hname, hpath⟩ := hplace
      obtain ⟨name', hname', hpath'⟩ := hplace'
      have hlists := congrArg String.toList (hpath.symm.trans hpath')
      simp only [stagedPath, String.toList_append, List.append_cancel_left_eq,
        String.toList_inj] at hlists
      have hid : other.fileId = file.fileId := by
        by_contra hne
        refine hnames other (filesOf_subset hfetched hother) file hfile hne ?_ ?_
        · rw [hname']
          rfl
        · rw [hname', hname, hlists]
      refine (Function.update_self _ _ _).trans ?_
      rw [hid]
    · exact (Function.update_of_ne hsame _ _).trans h
  | _ => exact h

/-- A step of one run leaves what another one knows. -/
theorem TelegramKnows.frame (hnames : NamesTell options (filesOf store.delivered))
    (hfetched : note.updates ⊆ store.delivered)
    (hasks : (telegramContract env options bot).asks note call) (hfresh : FreshKey store call)
    (h : TelegramKnows env options bot store note') :
    TelegramKnows env options bot (CollectorStore.serve x store call).1 note' where
  offset raw hraw k hk hle :=
    (h.offset raw hraw k hk hle).mono (CollectorStore.serve_published x store call)
  fetched raw hraw := CollectorStore.serve_delivered x store call (h.fetched raw hraw)
  handsOut := h.handsOut
  stored locator bytes hmem := by
    obtain ⟨hblob, file, hfile, rfl, hplace⟩ := h.stored locator bytes hmem
    exact ⟨blobs_stay hnames hfetched hasks hfresh (filesOf_subset h.fetched hfile) hplace hblob,
      file, hfile, rfl, hplace⟩
  handed hhanded raw hraw :=
    (h.handed hhanded raw hraw).mono (CollectorStore.serve_published x store call)

/-- An offset that a run stores has passed only what it has read, or what had been passed. -/
theorem TelegramKnows.passes (hknows : TelegramKnows env options bot store note) {n : Int}
    (hhanded : note.handed = true)
    (hn : n = note.offset ∨ ∃ last ∈ note.updates, updateId last = some n) {raw : Json}
    (hraw : raw ∈ bot.updates) {k : Int} (hk : updateId raw = some k) (hle : k ≤ n) :
    UpdatePublished env options store.published raw := by
  by_cases hbefore : k ≤ note.offset
  · exact hknows.offset raw hraw k hk hbefore
  · rcases hn with rfl | ⟨last, hlast, hid⟩
    · exact absurd hle hbefore
    · exact hknows.handed hhanded raw
        (hknows.handsOut.complete raw hraw k hk (by omega) ⟨last, hlast, n, hid, hle⟩)

/-- What the store keeps. -/
theorem TelegramShared.next (hallows : telegramAllows options bot note store x call)
    (hshared : TelegramShared env options bot store)
    (hknows : TelegramKnows env options bot store note)
    (hasks : (telegramContract env options bot).asks note call) :
    TelegramShared env options bot (CollectorStore.serve x store call).1 := by
  obtain ⟨-, hfresh, hnames⟩ := hallows
  have hfetched : note.updates ⊆ store.delivered := hknows.fetched
  have hstay : ∀ file ∈ filesOf store.delivered, ∀ locator, PlaceFor options file locator →
      store.blobs locator = some (bot.content file.fileId) →
      (CollectorStore.serve x store call).1.blobs locator = some (bot.content file.fileId) :=
    fun file hfile locator hplace h =>
      blobs_stay hshared.names hfetched hasks hfresh hfile hplace h
  have heffect := CollectorStore.serve_effect x store call
  generalize (CollectorStore.serve x store call).1 = after at heffect hstay ⊢
  cases heffect with
  | nothing => exact hshared
  | handsOut =>
    refine ⟨hnames, fun job hjob locator hlocator => ?_, hshared.passed⟩
    obtain ⟨file, hfile, hrest⟩ := hshared.own job hjob locator hlocator
    exact ⟨file, filesOf_subset (List.subset_append_left _ _) hfile, hrest⟩
  | publishes =>
    refine ⟨hshared.names, fun job hjob locator hlocator => ?_, fun key n hn raw hraw k hk hle =>
      (hshared.passed key n hn raw hraw k hk hle).mono (List.subset_append_left _ _)⟩
    rcases List.mem_append.mp hjob with hold | hnew
    · exact hshared.own job hold locator hlocator
    · obtain ⟨file, hfile, hkey, hplace, hstored⟩ := hasks.2 job hnew locator hlocator
      exact ⟨file, filesOf_subset hfetched hfile, hkey, hplace, (hknows.stored _ _ hstored).1⟩
  | @puts key value =>
    refine ⟨hshared.names, hshared.own, fun key' n hn raw hraw k hk hle => ?_⟩
    change readNumber (Function.update store.states key (some value) key') "offset" = some n at hn
    by_cases hkey : key' = key
    · rw [hkey, Function.update_self] at hn
      obtain ⟨hhanded, hoffset⟩ := hasks n hn
      exact hknows.passes hhanded hoffset hraw hk hle
    · rw [Function.update_of_ne hkey] at hn
      exact hshared.passed key' n hn raw hraw k hk hle
  | uploads | writes =>
    refine ⟨hshared.names, fun job hjob locator hlocator => ?_, hshared.passed⟩
    obtain ⟨file, hfile, hkey, hplace, hblob⟩ := hshared.own job hjob locator hlocator
    exact ⟨file, hfile, hkey, hplace, hstay file hfile locator hplace hblob⟩

/-- A file that was stored just now is known besides those stored before. -/
theorem TelegramKnows.stores (h : TelegramKnows env options bot store note)
    {locator : Locator} {bytes : Bytes} (hblob : store.blobs locator = some bytes)
    {file : TelegramFile} (hfile : file ∈ filesOf note.updates)
    (hbytes : bytes = bot.content file.fileId) (hplace : PlaceFor options file locator) :
    TelegramKnows env options bot store { note with stored := (locator, bytes) :: note.stored } where
  offset := h.offset
  fetched := h.fetched
  handsOut := h.handsOut
  stored locator' bytes' hmem := by
    rcases List.mem_cons.mp hmem with hnew | hold
    · obtain ⟨rfl, rfl⟩ := Prod.mk.inj hnew
      exact ⟨hblob, file, hfile, hbytes, hplace⟩
    · exact h.stored locator' bytes' hold
  handed := h.handed

/-- What the run that makes the call knows. -/
theorem TelegramKnows.next (hallows : telegramAllows options bot note store x call)
    (hshared : TelegramShared env options bot store)
    (hknows : TelegramKnows env options bot store note)
    (hasks : (telegramContract env options bot).asks note call) :
    TelegramKnows env options bot (CollectorStore.serve x store call).1
      (note.next call (CollectorStore.serve x store call).2) := by
  -- what was known before the call still holds after it
  have hframe : TelegramKnows env options bot (CollectorStore.serve x store call).1 note :=
    hknows.frame hshared.names hknows.fetched hasks hallows.2.1
  cases call with
  | getState key =>
    cases hanswer : x.answer (.getState key) with
    | error e => simpa [CollectorStore.serve, hanswer, TelegramNote.next] using hframe
    | ok _ =>
      simp only [CollectorStore.serve, hanswer, TelegramNote.next]
      refine ⟨fun raw hraw k hk hle => ?_, fun raw hraw => (by cases hraw), .nil _,
        fun locator bytes hmem => (by cases hmem), fun _ raw hraw => (by cases hraw)⟩
      -- the offset is read afresh: nothing was fetched or handed out yet
      cases hoffset : readNumber (store.states key) "offset" with
      | none =>
        rw [hoffset] at hle
        exact absurd (bot.positive raw hraw k hk) (not_lt.mpr hle)
      | some n =>
        rw [hoffset] at hle
        exact hshared.passed key n hoffset raw hraw k hk hle
  | getUpdates token offset =>
    obtain ⟨hidle, rfl⟩ := hasks
    refine ⟨hframe.offset, fun raw hraw => List.mem_append_right _ hraw, hallows.1,
      fun locator bytes hmem => (by cases hmem), fun hhanded => ?_⟩
    cases hidle.symm.trans hhanded
  -- the two places a file may be stored at are known in the same way
  | upload objectKey bytes =>
    obtain ⟨file, hfile, hbytes⟩ := hasks
    cases hanswer : x.answer (.upload objectKey bytes) with
    | error e =>
      simp only [CollectorStore.serve, hanswer, TelegramNote.next] at hframe ⊢
      exact hframe
    | ok _ =>
      simp only [CollectorStore.serve, hanswer, TelegramNote.next, CollectorChoice.takes,
        Except.isOk, Except.toBool, Bool.true_or, if_true] at hframe ⊢
      exact hframe.stores (Function.update_self _ _ _) hfile hbytes trivial
  | writeFile localPath bytes =>
    obtain ⟨file, hfile, hbytes, hplace⟩ := hasks
    cases hanswer : x.answer (.writeFile localPath bytes) with
    | error e =>
      simp only [CollectorStore.serve, hanswer, TelegramNote.next] at hframe ⊢
      exact hframe
    | ok _ =>
      simp only [CollectorStore.serve, hanswer, TelegramNote.next, CollectorChoice.takes,
        Except.isOk, Except.toBool, Bool.true_or, if_true] at hframe ⊢
      exact hframe.stores (Function.update_self _ _ _) hfile hbytes hplace
  | worker call =>
    cases call with
    | publishJobs jobs =>
      cases hanswer : x.answer (.worker (.publishJobs jobs)) with
      | error e =>
        simp only [CollectorStore.serve, hanswer, TelegramNote.next] at hframe ⊢
        exact hframe
      | ok queued =>
        simp only [CollectorStore.serve, hanswer, TelegramNote.next, CollectorChoice.takes,
          Except.isOk, Except.toBool, Bool.true_or, if_true] at hframe ⊢
        exact ⟨hframe.offset, hframe.fetched, hframe.handsOut, hframe.stored,
          fun _ raw hraw => (hasks.1 raw hraw).mono (List.subset_append_right _ _)⟩
    | _ => exact hframe
  | _ => exact hframe

end Knows

/-! ## Runs -/

section Runs

variable {ι : Type} [DecidableEq ι] {env : Env}

/-- A call that is answered from the store says nothing of Telegram. -/
theorem TelegramBot.Answers.serve {bot : TelegramBot} {store : CollectorStore} {x : CollectorChoice}
    {call : CollectorCall} (h : bot.Answers call (x.answer call)) :
    bot.Answers call (CollectorStore.serve x store call).2 := by
  cases call with
  | worker call => trivial
  | getUpdates | getFile | downloadFile => exact h
  | _ => trivial

/-- What holds in every run whose steps all meet the condition. -/
def telegramOutline (env : Env) (options : CollectorOptions) (bot : TelegramBot) :
    ProofOutline (ι := ι) (α := Except Thrown JobHandlerResult) CollectorStore.serve
      fun (note : TelegramNote) (_ : CollectorStore) call answer _ => note.next call answer :=
  ProofOutline.ofCalls (telegramContract env options bot) (fun _ _ _ => True)
    (telegramAllows options bot) (TelegramShared env options bot) (TelegramKnows env options bot)
    (fun _ _ _ _ hallows hshared hknows hasks =>
      ⟨hshared.next hallows hknows hasks, hknows.next hallows hshared hasks, rfl, hallows.1.serve⟩)
    (fun _ _ _ _ _ hallows hshared hknows hasks hother =>
      hother.frame hshared.names hknows.fetched hasks hallows.2.1)

/-- A store of which only the attachments are there. -/
def CollectorStore.before (blobs : Locator → Option Bytes) : CollectorStore where
  states _ := none
  published := []
  blobs
  delivered := []

omit [DecidableEq ι] in
/-- At the start nothing is collected. -/
theorem telegramOutline_start (hfree : env.CollisionFree) (handler : HandlerOptions)
    (options : CollectorOptions) (bot : TelegramBot) (jobs : ι → QueueJob) (shadow : ι → Bool)
    (blobs : Locator → Option Bytes) :
    (telegramOutline env options bot).Holds
      (TelegramRuns.start env handler options jobs shadow (.before blobs)) := by
  refine ⟨⟨?_, ?_, ?_⟩, fun i p hp => ?_⟩
  · intro a ha
    cases ha
  · intro job hjob
    cases hjob
  · intro key n hn
    cases hn
  · obtain rfl := Option.some.inj hp
    refine ⟨⟨?_, ?_, .nil _, ?_, ?_⟩, meets_collectorRun_telegram hfree handler (jobs i) (shadow i)⟩
    · intro raw hraw k hk hle
      exact absurd (bot.positive raw hraw k hk) (not_lt.mpr hle)
    · intro raw hraw
      cases hraw
    · intro locator bytes hmem
      cases hmem
    · intro hhanded
      cases hhanded

theorem fileKey_inj (hfree : env.CollisionFree) {options : CollectorOptions} {a b : TelegramFile}
    {k : String} (ha : fileKey env options a = some k) (hb : fileKey env options b = some k) :
    ∃ remoteName, sanitizeFilename options a.remoteName = some remoteName ∧
      sanitizeFilename options b.remoteName = some remoteName := by
  obtain ⟨name, hname, hkey⟩ := Option.map_eq_some_iff.mp ha
  obtain ⟨name', hname', hkey'⟩ := Option.map_eq_some_iff.mp hb
  have hsame : name = name' := (createItemDedupeKey_inj hfree (hkey.trans hkey'.symm)).2
  exact ⟨name, hname, by rw [hname', hsame]⟩

/-- Where names tell files apart, one key is one file. -/
theorem NamesTell.fileId_eq (hfree : env.CollisionFree) {options : CollectorOptions}
    {files : List TelegramFile} (h : NamesTell options files) {a b : TelegramFile} (ha : a ∈ files)
    (hb : b ∈ files) {k : String} (hkey : fileKey env options a = some k)
    (hkey' : fileKey env options b = some k) : a.fileId = b.fileId := by
  obtain ⟨name, hname, hname'⟩ := fileKey_inj hfree hkey hkey'
  by_contra hne
  refine h a ha b hb hne ?_ ?_
  · rw [hname]
    rfl
  · rw [hname, hname']

/-- What the runs share is sound. -/
theorem TelegramShared.sound (hfree : env.CollisionFree) {options : CollectorOptions}
    {bot : TelegramBot} {store : CollectorStore} (h : TelegramShared env options bot store) :
    store.Sound env options bot where
  keys a ha b hb hne k hk hk' := hne (h.names.fileId_eq hfree ha hb hk hk')
  own job hjob locator hlocator := by
    obtain ⟨file, hfile, hkey, -, hblob⟩ := h.own job hjob locator hlocator
    refine ⟨⟨file, hfile, hkey⟩, fun other hother hkey' => ?_⟩
    rw [h.names.fileId_eq hfree hother hfile hkey' hkey]
    exact hblob
  passed := h.passed

/-- **No attachment is merged with another one, or lost**, as long as files that are not the same have
different names; and only as long as they have, their jobs have different keys. -/
theorem telegramRuns_sound (hfree : env.CollisionFree) (handler : HandlerOptions)
    (options : CollectorOptions) :
    (∀ (bot : TelegramBot) (jobs : ι → QueueJob) (shadow : ι → Bool)
      (blobs : Locator → Option Bytes) (steps : List (ι × CollectorChoice)),
      telegramMachine.Admits (Watched.Allowed (telegramAllows options bot))
        (TelegramRuns.start env handler options jobs shadow (.before blobs)) steps →
      (telegramMachine.run (TelegramRuns.start env handler options jobs shadow (.before blobs))
        steps).pool.shared.Sound env options bot) ∧
    ∀ files : List TelegramFile,
      (∀ a ∈ files, ∀ b ∈ files, a.fileId ≠ b.fileId → ∀ k, fileKey env options a = some k →
        fileKey env options b ≠ some k) ↔ NamesTell options files := by
  constructor
  · intro bot jobs shadow blobs steps hsteps
    have hholds := ProofOutline.run
      (telegramOutline_start hfree handler options bot jobs shadow blobs) hsteps
    exact hholds.1.sound hfree
  · intro files
    constructor
    · intro h a ha b hb hne hsome hsame
      obtain ⟨name, hname⟩ := Option.isSome_iff_exists.mp hsome
      refine h a ha b hb hne (createItemDedupeKey env.sha256Hex (.file none none name)) ?_ ?_
      · rw [fileKey, hname]
        rfl
      · rw [fileKey, ← hsame, hname]
        rfl
    · intro h a ha b hb hne k hk hk'
      exact hne (h.fileId_eq hfree ha hb hk hk')

end Runs

/-! ## Two files of one name -/

namespace SameName

open PlainCollectors

/-- A message with a document. -/
def update (id fileId name : String) : Json :=
  .obj [("update_id", .num id),
    ("message", .obj [("document", .obj [("file_id", .str fileId), ("file_name", .str name)])])]

def json (updates : List Json) : CollectorCall → Json
  | .getFile _ fileId => .obj [("result", .obj [("file_path", .str fileId)])]
  | _ => .obj [("result", .arr updates)]

def textBytes (text : String) : Bytes := text.toList.map fun c => UInt8.ofNat c.toNat

def different : List Json := [update "1" "A" "report.pdf", update "2" "B" "notes.pdf"]

def same : List Json := [update "1" "A" "report.pdf", update "2" "B" "report.pdf"]

/-- A bot whose files have their ids as their bytes. -/
def bot (updates : List Json) (positive : ∀ raw ∈ updates, ∀ k, updateId raw = some k → 0 < k) :
    TelegramBot where
  updates
  content := textBytes
  bytesAt := textBytes
  positive

/-- A run over the updates. -/
def after (count : Nat) (updates : List Json) : CollectorStore :=
  (telegramMachine.run
    (TelegramRuns.start env handler options (fun _ => job) (fun _ => false) (.before fun _ => none))
    (List.replicate count (step () (json updates)))).pool.shared

theorem telegramRuns_sound_different :
    (after 15 different).Sound env options (bot different (by decide +kernel)) ∧
      (after 15 different).published.map QueueJob.dedupeKey =
        ["dispatch:file:6466e450a16b77b865c5829d6b6c56d9f892956475642dbeb9ccc4340fe01b15",
          "dispatch:file:bf74d5fed61191ece412f4f0452194651684b3c08ff2d759b8e76ed969bb4e7f"] :=
  ⟨(telegramRuns_sound collisionFree handler options).1 (bot different _) _ _ _ _
    (by decide +kernel), by decide +kernel⟩

/-- The second document has the key of the first one; it has no job, and its bytes are where those of
the first one were. -/
theorem merged : ¬ (after 13 same).Sound env options (bot same (by decide +kernel)) ∧
    (after 13 same).published.length = 1 ∧
    (after 13 same).blobs (.staged "/staging/report.pdf") = some (textBytes "B") ∧
    readNumber ((after 13 same).states (telegramStateKey env "t")) "offset" = some 2 := by
  refine ⟨fun h => ?_, by decide +kernel, by decide +kernel, by decide +kernel⟩
  have hkey : fileKey env options ⟨"A", "report.pdf"⟩ =
      some "dispatch:file:6466e450a16b77b865c5829d6b6c56d9f892956475642dbeb9ccc4340fe01b15" := by
    decide +kernel
  exact h.keys ⟨"A", "report.pdf"⟩ (by decide +kernel) ⟨"B", "report.pdf"⟩ (by decide +kernel)
    (by decide) _ hkey (by decide +kernel)

end SameName

end InboxServer
