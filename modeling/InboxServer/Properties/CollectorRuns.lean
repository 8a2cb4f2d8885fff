import InboxServer.Worker.HttpCollectors
import InboxServer.Properties.Sample

/-!
# Collector runs that share a store

What the handler of a collection job does with what its collector has found, and the store that any
number of runs work on, call by call.

* `meets_collectSource` — nothing of a collection is stored or committed before its jobs are published
* `CollectorStore.serve_effect` — what a call may make of the store
-/

namespace InboxServer

open Infra

/-! ## Jobs of items -/

/-- The jobs that are made of some items. -/
structure JobsOf (env : Env) (items : List DispatchItem) (jobs : List QueueJob) : Prop where
  covers : ∀ item ∈ items, ∃ job ∈ jobs, job.dedupeKey = createItemDedupeKey env.sha256Hex item
  only : ∀ job ∈ jobs, ∃ item ∈ items, job.dedupeKey = createItemDedupeKey env.sha256Hex item ∧
    ∃ parsed, parseDispatchItem env.zod item.toJson = some parsed ∧
      job.payload = .dispatchItem parsed

/-- What a parsed job has of the fields that it is parsed from. -/
theorem parseQueueJob_fields {zod : Zod} {fields : Fields} {job : QueueJob}
    (h : parseQueueJob zod (.obj fields) = some job) :
    (fields.lookup "dedupeKey").bind Json.nonEmptyString? = some job.dedupeKey ∧
      ∃ kind, fields.lookup "kind" = some kind ∧
        (fields.lookup "payload").bind (parsePayload zod kind) = some job.payload := by
  unfold parseQueueJob at h
  simp only [Option.bind_eq_bind] at h
  obtain ⟨-, -, h⟩ := Option.bind_eq_some_iff.mp h
  obtain ⟨createdAt, -, h⟩ := Option.bind_eq_some_iff.mp h
  obtain ⟨dedupeKey, hdedupe, h⟩ := Option.bind_eq_some_iff.mp h
  obtain ⟨jobId, -, h⟩ := Option.bind_eq_some_iff.mp h
  obtain ⟨-, -, h⟩ := Option.bind_eq_some_iff.mp h
  obtain ⟨kind, hkind, h⟩ := Option.bind_eq_some_iff.mp h
  obtain ⟨payload, hpayload, h⟩ := Option.bind_eq_some_iff.mp h
  rw [← Option.some.inj h]
  exact ⟨hdedupe, kind, hkind, hpayload⟩

theorem nonEmptyString?_str {s t : String} (h : Json.nonEmptyString? (.str s) = some t) : t = s := by
  simp only [Json.nonEmptyString?] at h
  split at h
  · cases h
  · exact (Option.some.inj h).symm

/-- What is parsed of a job that is made of an item. -/
theorem parseQueueJob_item {zod : Zod} {createdAt dedupeKey jobId : String} {item : DispatchItem}
    {job : QueueJob} (h : parseQueueJob zod
      (QueueJob.toJson ⟨createdAt, dedupeKey, jobId, .dispatchItem item⟩) = some job) :
    job.dedupeKey = dedupeKey ∧ ∃ parsed, parseDispatchItem zod item.toJson = some parsed ∧
      job.payload = .dispatchItem parsed := by
  obtain ⟨hdedupe, kind, hkind, hpayload⟩ := parseQueueJob_fields h
  have hkey : Json.nonEmptyString? (.str dedupeKey) = some job.dedupeKey := hdedupe
  have hkind' : some (Json.str "dispatch-item") = some kind := hkind
  have hitem : parsePayload zod kind item.toJson = some job.payload := hpayload
  obtain rfl := Option.some.inj hkind'
  obtain ⟨parsed, hparsed, hsome⟩ := Option.map_eq_some_iff.mp hitem
  exact ⟨nonEmptyString?_str hkey, parsed, hparsed, hsome.symm⟩

theorem optionalNonEmpty_str {path parsed : Option String}
    (h : optionalField Json.nonEmptyString? (path.map .str) = some parsed) : parsed = path := by
  cases path with
  | none => exact (Option.some.inj h).symm
  | some s =>
    obtain ⟨t, ht, hsome⟩ := Option.map_eq_some_iff.mp h
    rw [← hsome, nonEmptyString?_str ht]

/-- A file that parses is what it was. -/
theorem parseDispatchItem_file {zod : Zod} {localPath objectKey : Option String}
    {remoteName : String} {parsed : DispatchItem}
    (h : parseDispatchItem zod (DispatchItem.file localPath objectKey remoteName).toJson =
      some parsed) : parsed = .file localPath objectKey remoteName := by
  have hfields : ∀ fields, fields.lookup "itemKind" = some (Json.str "file") →
      fields.lookup "localPath" = localPath.map Json.str →
      fields.lookup "objectKey" = objectKey.map Json.str →
      fields.lookup "remoteName" = some (.str remoteName) →
      parseDispatchItem zod (.obj fields) = some parsed →
      parsed = .file localPath objectKey remoteName := by
    intro fields hkind hpath hkey hname hparse
    simp only [parseDispatchItem, hkind, parseFileItem, hpath, hkey, hname,
      Option.bind_eq_bind] at hparse
    obtain ⟨-, -, hparse⟩ := Option.bind_eq_some_iff.mp hparse
    obtain ⟨path, hpath, hparse⟩ := Option.bind_eq_some_iff.mp hparse
    obtain ⟨key, hkey, hparse⟩ := Option.bind_eq_some_iff.mp hparse
    obtain ⟨name, hname, hparse⟩ := Option.bind_eq_some_iff.mp hparse
    obtain ⟨-, -, hparse⟩ := Option.bind_eq_some_iff.mp hparse
    rw [← Option.some.inj hparse, optionalNonEmpty_str hpath, optionalNonEmpty_str hkey,
      nonEmptyString?_str hname]
  cases localPath <;> cases objectKey <;> exact hfields _ rfl rfl rfl rfl h

/-- A link that parses keeps its URL, as the schema writes it. -/
theorem parseDispatchItem_link {zod : Zod} {tags : Option (List String)} {title : Option String}
    {url : String} {parsed : DispatchItem}
    (h : parseDispatchItem zod (DispatchItem.link tags title url).toJson = some parsed) :
    ∃ tags' title' url', parsed = .link tags' title' url' ∧ zod.url url = some url' := by
  have hfields : ∀ fields, fields.lookup "itemKind" = some (Json.str "link") →
      fields.lookup "url" = some (.str url) → parseDispatchItem zod (.obj fields) = some parsed →
      ∃ tags' title' url', parsed = .link tags' title' url' ∧ zod.url url = some url' := by
    intro fields hkind hurl hparse
    simp only [parseDispatchItem, hkind, parseLinkItem, hurl, Option.bind_eq_bind] at hparse
    obtain ⟨-, -, hparse⟩ := Option.bind_eq_some_iff.mp hparse
    obtain ⟨tags', -, hparse⟩ := Option.bind_eq_some_iff.mp hparse
    obtain ⟨title', -, hparse⟩ := Option.bind_eq_some_iff.mp hparse
    obtain ⟨url', hurl', hparse⟩ := Option.bind_eq_some_iff.mp hparse
    exact ⟨tags', title', url', (Option.some.inj hparse).symm, hurl'⟩
  cases tags <;> cases title <;> exact hfields _ rfl rfl h

/-! ## What the handler keeps to -/

/-- What a run of the handler knows of its collection: its result, and whether its jobs are out. -/
structure CollectNote where
  result : Option CollectionResult
  handed : Bool

/-- Nothing is stored, and nothing committed, before the jobs of the collection are out. -/
def collectContract (env : Env) (source : SourceName) :
    Contract HandlerCall HandlerCall.Answer CollectNote where
  asks note
    | .collect asked => asked = source ∧ note = ⟨none, false⟩
    | .publishJobs jobs => ∃ result, note.result = some result ∧ JobsOf env result.items jobs
    | .putState key value =>
      (∃ count keys observedAt, value =
        .obj [("count", count), ("dedupeKeys", keys), ("observedAt", observedAt)]) ∨
      ∃ result, note.result = some result ∧ (key, value) ∈ result.stateUpdates ∧
        note.handed = true
    | .afterCommit => note.handed = true
    | .now | .randomUuid | .notify _ | .putLoginSession .. | .claimEffect _ | .finishEffect .. => True
    | .consumeRateLimit _ | .consumeRateLimits _ | .startDelivery _ | .awaitDelivery _ => False
  learns
    | _, .collect _, .ok result, note' => note' = ⟨some result, false⟩
    | note, .publishJobs _, .ok _, note' => note' = { note with handed := true }
    | note, _, _, note' => note' = note

section Collect

variable {env : Env} {source : SourceName}

/-- An item whose key is there already adds no job. -/
theorem JobsOf.again {done : List DispatchItem} {jobs : List QueueJob} {item : DispatchItem}
    (h : JobsOf env done jobs)
    (hkey : ∃ job ∈ jobs, job.dedupeKey = createItemDedupeKey env.sha256Hex item) :
    JobsOf env (done ++ [item]) jobs where
  covers other hother := by
    rcases List.mem_append.mp hother with hold | hnew
    · exact h.covers other hold
    · rw [List.mem_singleton.mp hnew]
      exact hkey
  only job hjob := by
    obtain ⟨other, hother, hrest⟩ := h.only job hjob
    exact ⟨other, List.mem_append_left _ hother, hrest⟩

theorem JobsOf.snoc {done : List DispatchItem} {jobs : List QueueJob} {item : DispatchItem}
    {job : QueueJob} (h : JobsOf env done jobs)
    (hkey : job.dedupeKey = createItemDedupeKey env.sha256Hex item)
    (hpayload : ∃ parsed, parseDispatchItem env.zod item.toJson = some parsed ∧
      job.payload = .dispatchItem parsed) : JobsOf env (done ++ [item]) (jobs ++ [job]) where
  covers other hother := by
    rcases List.mem_append.mp hother with hold | hnew
    · obtain ⟨found, hfound, hsame⟩ := h.covers other hold
      exact ⟨found, List.mem_append_left _ hfound, hsame⟩
    · rw [List.mem_singleton.mp hnew]
      exact ⟨job, List.mem_append_right _ (List.mem_singleton_self job), hkey⟩
  only found hfound := by
    rcases List.mem_append.mp hfound with hold | hnew
    · obtain ⟨other, hother, hrest⟩ := h.only found hold
      exact ⟨other, List.mem_append_left _ hother, hrest⟩
    · rw [List.mem_singleton.mp hnew]
      exact ⟨item, List.mem_append_right _ (List.mem_singleton_self item), hkey, hpayload⟩

theorem meets_toDispatchJobs {done : List DispatchItem} (items : List DispatchItem)
    {unique : Entries QueueJob} {note : CollectNote}
    (hkeys : ∀ e ∈ unique, e.1 = e.2.dedupeKey) (hunique : JobsOf env done (unique.map Prod.snd)) :
    (toDispatchJobs env items unique).Meets (collectContract env source)
      (fun note' result => note' = note ∧ ∀ jobs, result = .ok jobs →
        JobsOf env (done ++ items) jobs) note := by
  induction items generalizing done unique with
  | nil =>
    refine ⟨rfl, ?_⟩
    rintro jobs ⟨rfl⟩
    rw [List.append_nil]
    exact hunique
  | cons item items ih =>
    unfold toDispatchJobs
    rw [List.append_cons]
    dsimp only
    split
    · next hany =>
      obtain ⟨e, he, hkey⟩ := List.any_eq_true.mp hany
      refine ih hkeys (hunique.again ⟨e.2, List.mem_map_of_mem he, ?_⟩)
      rw [← hkeys e he]
      exact of_decide_eq_true hkey
    · next hfresh =>
      refine ⟨trivial, fun createdAt g hg => ⟨trivial, fun jobId g' hg' => ?_⟩⟩
      obtain rfl : g = note := hg
      obtain rfl : g' = g := hg'
      dsimp only
      split
      · exact ⟨rfl, fun jobs h => by cases h⟩
      · next job hparse =>
        obtain ⟨hkey, hpayload⟩ := parseQueueJob_item hparse
        rw [Entries.set, if_neg hfresh]
        refine ih (fun e he => ?_) ?_
        · rcases List.mem_append.mp he with hold | hnew
          · exact hkeys e hold
          · rw [List.mem_singleton.mp hnew]
            exact hkey.symm
        · rw [List.map_append]
          exact hunique.snoc hkey hpayload

theorem jobsOf_nil : JobsOf env [] [] where
  covers item hitem := by cases hitem
  only job hjob := by cases hjob

/-- A part of a run that leaves what is known as it is, whatever it ends with. -/
abbrev Keeps {α : Type} (note note' : CollectNote) (_ : Except Thrown α) : Prop := note' = note

theorem meets_notifyCollection (handler : HandlerOptions) (job : QueueJob) (note : CollectNote)
    (collected published : Nat) :
    (notifyCollection handler job source collected published).Meets (collectContract env source)
      (Keeps note) note := by
  unfold notifyCollection
  split
  · rfl
  · refine ⟨trivial, fun reply g hg => ?_⟩
    obtain rfl : g = note := hg
    rcases reply with e | ⟨attempts⟩ | ⟨retryAt⟩ | ⟨⟩ | ⟨⟩
    · rfl
    · refine ⟨trivial, fun reply g' hg' => ?_⟩
      obtain rfl : g' = g := hg'
      cases reply with
      | error e => rfl
      | ok _ => exact ⟨trivial, fun _ g'' hg'' => hg''⟩
    all_goals rfl

theorem meets_putStates {updates : Entries Json} {note : CollectNote} {result : CollectionResult}
    (hresult : note.result = some result) (hhanded : note.handed = true)
    (hupdates : ∀ e ∈ updates, e ∈ result.stateUpdates) :
    (putStates updates).Meets (collectContract env source) (Keeps note) note := by
  induction updates with
  | nil => rfl
  | cons e updates ih =>
    obtain ⟨key, value⟩ := e
    refine ⟨Or.inr ⟨result, hresult, hupdates _ List.mem_cons_self, hhanded⟩, fun reply g hg => ?_⟩
    obtain rfl : g = note := hg
    cases reply with
    | error e => rfl
    | ok _ => exact ih fun e he => hupdates e (List.mem_cons_of_mem _ he)

theorem meets_publishCollection (handler : HandlerOptions) (job : QueueJob) (shadow : Bool)
    {result : CollectionResult} {jobs : List QueueJob} (hjobs : JobsOf env result.items jobs) :
    (publishCollection handler job source shadow result jobs).Meets (collectContract env source)
      (fun _ _ => True) ⟨some result, false⟩ := by
  unfold publishCollection
  split
  · exact ⟨trivial, fun observedAt g _ => ⟨Or.inl ⟨_, _, _, rfl⟩, fun _ _ _ => trivial⟩⟩
  · refine ⟨⟨result, rfl, hjobs⟩, fun reply g hg => ?_⟩
    cases reply with
    | error e => trivial
    | ok queued =>
      obtain rfl : g = ⟨some result, true⟩ := hg
      refine (meets_putStates rfl rfl fun e he => he).andThen (fun g _ hg => ?_)
        fun _ _ _ => trivial
      obtain rfl : g = ⟨some result, true⟩ := hg
      unfold commitCollection
      split
      · refine ⟨rfl, fun reply g hg => ?_⟩
        obtain rfl : g = ⟨some result, true⟩ := hg
        cases reply with
        | error e => trivial
        | ok _ => exact (meets_notifyCollection handler job _ _ _).mono fun _ _ _ => trivial
      · exact (meets_notifyCollection handler job _ _ _).mono fun _ _ _ => trivial

/-- **Nothing of a collection is stored or committed before its jobs are published.** -/
theorem meets_collectSource (handler : HandlerOptions) (job : QueueJob) (shadow : Bool) :
    (collectSource env handler job shadow source).Meets (collectContract env source)
      (fun _ _ => True) ⟨none, false⟩ := by
  unfold collectSource
  split
  · trivial
  · refine ⟨⟨rfl, rfl⟩, fun reply g hg => ?_⟩
    cases reply with
    | error e => trivial
    | ok result =>
      obtain rfl : g = ⟨some result, false⟩ := hg
      refine (meets_toDispatchJobs result.items (fun e he => by cases he) jobsOf_nil).andThen
        (fun g jobs hjobs => ?_) fun _ _ _ => trivial
      obtain ⟨rfl, hjobs⟩ := hjobs
      refine (meets_publishCollection handler job shadow (hjobs jobs rfl)).andThen
        (fun g _ _ => ?_) fun _ _ _ => trivial
      unfold putSession
      cases result.loginSession with
      | none => trivial
      | some session =>
        refine ⟨trivial, fun reply g _ => ?_⟩
        cases reply <;> trivial

end Collect

/-! ## The store -/

/-- Where the bytes of an attachment are. -/
inductive Locator where
  | object (objectKey : String)
  | staged (localPath : String)
  deriving DecidableEq

/-- What collector runs share. -/
structure CollectorStore where
  /-- The states that the control plane keeps. -/
  states : String → Option Json
  /-- The jobs that have been published. -/
  published : List QueueJob
  blobs : Locator → Option Bytes
  /-- The updates that Telegram has handed out. -/
  delivered : List Json

/-- What the environment draws for a call; one that throws may have been carried out. -/
structure CollectorChoice where
  answer : (call : CollectorCall) → call.Answer
  carriedOut : Bool

/-- Whether a call with the given reply has an effect. -/
def CollectorChoice.takes {α : Type} (x : CollectorChoice) (reply : Except Thrown α) : Bool :=
  reply.isOk || x.carriedOut

namespace CollectorStore

/-- The updates of a reply to `getUpdates`. -/
def updatesOf (reply : Except Thrown JsonResponse) : List Json :=
  match jsonReply reply with
  | .ok payload => resultList payload
  | .error _ => []

/-- What a call does, and how it is answered. -/
def serve (x : CollectorChoice) (store : CollectorStore) :
    (call : CollectorCall) → CollectorStore × call.Answer
  | .getState key =>
    (store, match x.answer (.getState key) with
      | .ok _ => .ok (store.states key)
      | .error e => .error e)
  | .worker (.putState key value) =>
    (if x.takes (x.answer (.worker (.putState key value))) then
      { store with states := Function.update store.states key (some value) } else store,
      x.answer (.worker (.putState key value)))
  | .worker (.publishJobs jobs) =>
    (if x.takes (x.answer (.worker (.publishJobs jobs))) then
      { store with published := store.published ++ jobs } else store,
      x.answer (.worker (.publishJobs jobs)))
  | .getUpdates token offset =>
    ({ store with
        delivered := store.delivered ++ updatesOf (x.answer (.getUpdates token offset)) },
      x.answer (.getUpdates token offset))
  | .upload objectKey bytes =>
    (if x.takes (x.answer (.upload objectKey bytes)) then
      { store with blobs := Function.update store.blobs (.object objectKey) (some bytes) } else store,
      x.answer (.upload objectKey bytes))
  | .writeFile localPath bytes =>
    (if x.takes (x.answer (.writeFile localPath bytes)) then
      { store with blobs := Function.update store.blobs (.staged localPath) (some bytes) } else store,
      x.answer (.writeFile localPath bytes))
  | call => (store, x.answer call)

/-- What a call may make of the store. -/
inductive Effect (x : CollectorChoice) (store : CollectorStore) :
    CollectorCall → CollectorStore → Prop
  | nothing {call} : Effect x store call store
  | handsOut {token offset} : Effect x store (.getUpdates token offset)
      { store with
        delivered := store.delivered ++ updatesOf (x.answer (.getUpdates token offset)) }
  | publishes {jobs} : Effect x store (.worker (.publishJobs jobs))
      { store with published := store.published ++ jobs }
  | puts {key value} : Effect x store (.worker (.putState key value))
      { store with states := Function.update store.states key (some value) }
  | uploads {objectKey bytes} : Effect x store (.upload objectKey bytes)
      { store with blobs := Function.update store.blobs (.object objectKey) (some bytes) }
  | writes {localPath bytes} : Effect x store (.writeFile localPath bytes)
      { store with blobs := Function.update store.blobs (.staged localPath) (some bytes) }

theorem serve_effect (x : CollectorChoice) (store : CollectorStore) (call : CollectorCall) :
    Effect x store call (serve x store call).1 := by
  cases call with
  | getUpdates token offset => exact .handsOut
  | upload objectKey bytes =>
    simp only [serve]
    split
    · exact .uploads
    · exact .nothing
  | writeFile localPath bytes =>
    simp only [serve]
    split
    · exact .writes
    · exact .nothing
  | worker call =>
    cases call with
    | publishJobs jobs =>
      simp only [serve]
      split
      · exact .publishes
      · exact .nothing
    | putState key value =>
      simp only [serve]
      split
      · exact .puts
      · exact .nothing
    | _ => exact .nothing
  | _ => exact .nothing

/-- What was published stays published. -/
theorem serve_published (x : CollectorChoice) (store : CollectorStore) (call : CollectorCall) :
    store.published ⊆ (serve x store call).1.published := by
  have heffect := serve_effect x store call
  generalize (serve x store call).1 = after at heffect ⊢
  cases heffect with
  | publishes => exact List.subset_append_left _ _
  | _ => exact fun _ h => h

end CollectorStore

/-- The URL of a link job. -/
def linkOf (job : QueueJob) : Option String :=
  match job.payload with
  | .dispatchItem (.link _ _ url) => some url
  | .dispatchItem (.text ..) | .dispatchItem (.file ..) | .dispatchItem (.article ..)
  | .collectSource .. => none

/-- The link has been published as a job, as the schema writes it. -/
def LinkPublished (env : Env) (published : List QueueJob) (url : String) : Prop :=
  ∃ job ∈ published, (linkOf job).isSome ∧ linkOf job = env.zod.url url

instance (env : Env) (published : List QueueJob) (url : String) :
    Decidable (LinkPublished env published url) := by
  unfold LinkPublished
  infer_instance

theorem LinkPublished.mono {env : Env} {published published' : List QueueJob} {url : String}
    (h : LinkPublished env published url) (hsub : published ⊆ published') :
    LinkPublished env published' url := by
  obtain ⟨job, hjob, hrest⟩ := h
  exact ⟨job, hsub hjob, hrest⟩

/-- Items with one key are of one kind, and identical. -/
theorem createItemDedupeKey_inj {env : Env} (hfree : env.CollisionFree) {a b : DispatchItem}
    (h : createItemDedupeKey env.sha256Hex a = createItemDedupeKey env.sha256Hex b) :
    a.itemKind = b.itemKind ∧ itemIdentity a = itemIdentity b := by
  have hlists := congrArg String.toList h
  simp only [createItemDedupeKey, String.toList_append, List.append_assoc,
    List.append_cancel_left_eq] at hlists
  -- the names of the kinds differ in their first characters
  have hkind : a.itemKind = b.itemKind := by
    cases ha : a.itemKind <;> cases hb : b.itemKind <;>
      simp [ha, hb, ItemKind.name] at hlists ⊢
  rw [hkind] at hlists
  simp only [List.append_cancel_left_eq, String.toList_inj] at hlists
  exact ⟨hkind, hfree hlists⟩

/-- The jobs of some items publish each link among them. -/
theorem JobsOf.linkPublished {env : Env} (hfree : env.CollisionFree) {items : List DispatchItem}
    {jobs : List QueueJob} (h : JobsOf env items jobs) {tags : Option (List String)}
    {title : Option String} {url : String} (hitem : DispatchItem.link tags title url ∈ items) :
    LinkPublished env jobs url := by
  obtain ⟨job, hjob, hkey⟩ := h.covers _ hitem
  obtain ⟨item, -, hsame, parsed, hparsed, hpayload⟩ := h.only job hjob
  obtain ⟨hkind, hidentity⟩ := createItemDedupeKey_inj hfree (hsame.symm.trans hkey)
  obtain ⟨tags', title', rfl⟩ : ∃ tags' title', item = .link tags' title' url := by
    cases item with
    | link tags' title' url' => exact ⟨tags', title', by rw [show url' = url from hidentity]⟩
    | text | file | article => cases hkind
  obtain ⟨tags'', title'', url', rfl, hurl⟩ := parseDispatchItem_link hparsed
  refine ⟨job, hjob, ?_⟩
  rw [linkOf, hpayload]
  exact ⟨rfl, hurl.symm⟩

/-! ## A concrete environment -/

namespace PlainCollectors

/-- The texts that the runs hash, with their SHA-256 digests. -/
def digests : List (String × String) :=
  [("t", "e3b98a4da31a127d4bde6e43033f66ba274cab0eb7eb1c70ec41402bf6273dd8"),
    ("d", "18ac3e7343f016890c510e93f935261169d9e3f565436429830faf0934f4f8e4"),
    ("report.pdf", "6466e450a16b77b865c5829d6b6c56d9f892956475642dbeb9ccc4340fe01b15"),
    ("notes.pdf", "bf74d5fed61191ece412f4f0452194651684b3c08ff2d759b8e76ed969bb4e7f"),
    ("http://a", "54df484bb282e7e472b74675fab8f1b61a6c46a2988252b6d2bf35d9afa8f5c0"),
    ("http://b", "513ede8032c1eb2f706967d243253386cda6ee282eddb6d338c6ac763f5b7ae3")]

/-- SHA-256 on these texts, and without collisions everywhere. -/
def sha256Hex (text : String) : String := (digests.lookup text).getD ("SHA-256 of " ++ text)

theorem mem_digests {text digest : String} (h : digests.lookup text = some digest) :
    (text, digest) ∈ digests := by
  obtain ⟨before, after, hsplit, -⟩ := List.lookup_eq_some_iff.mp h
  rw [hsplit]
  exact List.mem_append_right _ List.mem_cons_self

/-- The other texts go to texts that are no digests. -/
theorem ne_of_mem_digests {entry : String × String} (h : entry ∈ digests) (text : String) :
    entry.2 ≠ "SHA-256 of " ++ text := by
  intro heq
  have hdigit : ∀ entry ∈ digests, entry.2.toList.head? ≠ some 'S' := by decide +kernel
  refine hdigit entry h ?_
  rw [heq, String.toList_append]
  rfl

theorem sha256Hex_injective : Function.Injective sha256Hex := by
  intro a b heq
  have hkeys : ∀ entry ∈ digests, ∀ other ∈ digests, entry.2 = other.2 → entry.1 = other.1 := by
    decide +kernel
  unfold sha256Hex at heq
  cases ha : digests.lookup a with
  | some digest =>
    cases hb : digests.lookup b with
    | some other =>
      rw [ha, hb] at heq
      exact hkeys _ (mem_digests ha) _ (mem_digests hb) heq
    | none =>
      rw [ha, hb] at heq
      exact absurd heq (ne_of_mem_digests (mem_digests ha) b)
  | none =>
    cases hb : digests.lookup b with
    | some other =>
      rw [ha, hb] at heq
      exact absurd heq.symm (ne_of_mem_digests (mem_digests hb) a)
    | none =>
      rw [ha, hb] at heq
      exact (String.append_right_inj _).mp heq

def env : Env where
  zod := { Sample.zod with url := fun s => if s = "http://a" ∨ s = "http://b" then some s else none }
  sha256Hex
  encryptJson _ _ := none
  decryptJson _ := none

theorem collisionFree : env.CollisionFree := sha256Hex_injective

def handler : HandlerOptions where
  channels :=
    { archiveEnabled := false
      articleArchive := ⟨1, 1, 1, Nat.one_pos, Nat.one_pos, Nat.one_pos⟩
      destinations := []
      nodup := List.nodup_nil }
  hasArchive := false
  hasBrowser := false
  hasNotify := false

def options : CollectorOptions where
  sources :=
    [("dida", { enabled := true, config := [("access_token", .str "d")] }),
      ("telegram", { enabled := true, config := [("bot_token", .str "t")] })]
  hasAttachmentStore := false
  stagingDir := "/staging"
  isHttpUrl url := "http://".toList.isPrefixOf url.toList
  isLetterOrNumber c := c.isAlphanum

/-- A store with nothing in it. -/
def store : CollectorStore where
  states _ := none
  published := []
  blobs _ := none
  delivered := []

/-- The order of the places is a possible order. -/
theorem perm_range (count : Nat) : (List.range count).Perm (List.range count) := .rfl

/-- Every call succeeds; what is fetched as JSON is `json`, and the bytes of a file are those of its path. -/
def answer (json : CollectorCall → Json) : (call : CollectorCall) → call.Answer
  | .getState _ => .ok none
  | .getUpdates token offset => .ok (200, some (json (.getUpdates token offset)))
  | .arrange count => ⟨List.range count, perm_range count⟩
  | .getFile token fileId => .ok (200, some (json (.getFile token fileId)))
  | .downloadFile _ filePath => .ok (200, filePath.toList.map fun c => UInt8.ofNat c.toNat)
  | .upload .. | .writeFile .. => .ok ()
  | .getInboxTasks token => .ok (200, some (json (.getInboxTasks token)))
  | .deleteTask .. => .ok 200
  | .worker .now => 1767600000000
  | .worker .randomUuid => Sample.firstId
  | .worker (.publishJobs jobs) => .ok jobs.length
  | .worker .afterCommit | .worker (.notify _) | .worker (.putState ..)
  | .worker (.putLoginSession ..) | .worker (.finishEffect ..) => .ok ()
  | .worker (.collect _) | .worker (.consumeRateLimit _) | .worker (.consumeRateLimits _)
  | .worker (.claimEffect _) | .worker (.awaitDelivery _) => .error .other
  | .worker (.startDelivery _) => ()

/-- A step of the run at a place. -/
def step {ι : Type} (i : ι) (json : CollectorCall → Json) : ι × CollectorChoice :=
  (i, { answer := answer json, carriedOut := false })

def job : QueueJob where
  createdAt := Sample.createdAt
  dedupeKey := "collect"
  jobId := Sample.secondId
  payload := .collectSource false .telegram .schedule

end PlainCollectors

end InboxServer
