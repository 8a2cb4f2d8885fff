import InboxServer.Properties.CollectorRuns

/-!
# Tasks that are deleted from Dida

* `didaRuns_deletes_published` — what runs delete has been published, as long as no task to delete
  comes under a saved title with a link of its own
-/

namespace InboxServer

open Infra

/-! ## What is parsed -/

section Parse

variable {isHttpUrl : String → Bool} {saved : List String} {input : List Json}

/-- What is read of a task: nothing, where it is no record. -/
theorem didaLink_nil : didaLink isHttpUrl [] = none := rfl

theorem parseDidaTask_eq (parse : DidaParse) (raw : Json) :
    parseDidaTask isHttpUrl saved parse raw =
      match didaLink isHttpUrl (Json.record (some raw)) with
      | none => parse
      | some pair =>
        let task := Json.record (some raw)
        { deleteTasks := parse.deleteTasks ++ (didaDelete task).toList
          items := parse.items ++ if didaTitle task ∈ saved then [] else [didaItem pair]
          savedTitles := if didaTitle task ∈ saved then parse.savedTitles
            else parse.savedTitles.insert (didaTitle task) } := by
  cases raw with
  | obj task =>
    unfold parseDidaTask
    cases hlink : didaLink isHttpUrl task with
    | none => simp [Json.record, hlink]
    | some pair =>
      by_cases hsaved : didaTitle task ∈ saved
      · simp [Json.record, hlink, hsaved]
      · simp [Json.record, hlink, hsaved]
  | null | bool | num | str | arr =>
    simp only [Json.record, didaLink_nil]
    rfl

/-- What is deleted: each task with a link, an id and a project. -/
theorem mem_deleteTasks {task : DeleteTask} :
    task ∈ (parseDidaTasks isHttpUrl input saved).deleteTasks ↔
      ∃ raw ∈ input, (didaLink isHttpUrl (Json.record (some raw))).isSome ∧
        didaDelete (Json.record (some raw)) = some task := by
  unfold parseDidaTasks
  induction input using List.reverseRecOn with
  | nil => simp
  | append_singleton before raw ih =>
    rw [List.foldl_append, List.foldl_cons, List.foldl_nil, parseDidaTask_eq]
    cases hlink : didaLink isHttpUrl (Json.record (some raw)) with
    | none => simp [ih, hlink, or_and_right, exists_or]
    | some pair => simp [ih, hlink, or_and_right, exists_or]

/-- What is published: each task with a link and a title that is not saved. -/
theorem mem_didaItems {item : DispatchItem} :
    item ∈ (parseDidaTasks isHttpUrl input saved).items ↔
      ∃ raw ∈ input, ∃ pair, didaLink isHttpUrl (Json.record (some raw)) = some pair ∧
        didaTitle (Json.record (some raw)) ∉ saved ∧ item = didaItem pair := by
  unfold parseDidaTasks
  induction input using List.reverseRecOn with
  | nil => simp
  | append_singleton before raw ih =>
    rw [List.foldl_append, List.foldl_cons, List.foldl_nil, parseDidaTask_eq]
    cases hlink : didaLink isHttpUrl (Json.record (some raw)) with
    | none => simp [ih, hlink, or_and_right, exists_or]
    | some pair =>
      by_cases hsaved : didaTitle (Json.record (some raw)) ∈ saved
      · simp [ih, hlink, hsaved, or_and_right, exists_or]
      · simp [ih, hlink, hsaved, or_and_right, exists_or]

end Parse

/-! ## Titles and links -/

/-- The task is deleted, for its link. -/
def Deletes (isHttpUrl : String → Bool) (raw : Json) (pair : UrlTitle) : Prop :=
  (didaDelete (Json.record (some raw))).isSome ∧
    didaLink isHttpUrl (Json.record (some raw)) = some pair

/-- The link goes out with a task of the list. -/
def GoesOut (isHttpUrl : String → Bool) (saved : List String) (tasks : List Json) (url : String) :
    Prop :=
  ∃ raw ∈ tasks, didaTitle (Json.record (some raw)) ∉ saved ∧
    (didaLink isHttpUrl (Json.record (some raw))).map UrlTitle.url = some url

/--
No task that is to be deleted comes under a saved title with a link of its own: one that has not
been published, and does not go out with another task of the list.
-/
def TitlesTell (env : Env) (isHttpUrl : String → Bool) (saved : List String)
    (published : List QueueJob) (tasks : List Json) : Prop :=
  ∀ raw ∈ tasks, ∀ pair ∈ didaLink isHttpUrl (Json.record (some raw)),
    (didaDelete (Json.record (some raw))).isSome → didaTitle (Json.record (some raw)) ∈ saved →
      LinkPublished env published pair.url ∨ GoesOut isHttpUrl saved tasks pair.url

instance (isHttpUrl : String → Bool) (saved : List String) (tasks : List Json) (url : String) :
    Decidable (GoesOut isHttpUrl saved tasks url) := by
  unfold GoesOut
  infer_instance

instance (env : Env) (isHttpUrl : String → Bool) (saved : List String)
    (published : List QueueJob) (tasks : List Json) :
    Decidable (TitlesTell env isHttpUrl saved published tasks) := by
  unfold TitlesTell
  infer_instance

/-! ## Runs -/

/-- What a run has read, whether its jobs are out, and what it has asked to be deleted. -/
structure DidaNote where
  saved : List String
  tasks : List Json
  handed : Bool
  deleted : List DeleteTask

def DidaNote.start : DidaNote := ⟨[], [], false, []⟩

/-- The tasks of a reply. -/
def tasksOf (reply : Except Thrown JsonResponse) : List Json :=
  match jsonReply reply with
  | .ok payload => taskList payload
  | .error _ => []

/-- How a note moves with a call and its answer. -/
def DidaNote.next (note : DidaNote) : (call : CollectorCall) → call.Answer → DidaNote
  | .getState _, .ok state =>
    { note with saved := readStringArray state "savedTitles", tasks := [] }
  | .getInboxTasks _, reply => { note with tasks := tasksOf reply }
  | .worker (.publishJobs _), .ok _ => { note with handed := true }
  | .deleteTask _ task, _ => { note with deleted := task :: note.deleted }
  | _, _ => note

abbrev DidaRuns (ι : Type) :=
  Watched ι CollectorStore CollectorCall CollectorCall.Answer (Except Thrown JobHandlerResult)
    DidaNote

/-- The condition on the tasks that a run gets, for the titles that it has read. -/
def titlesTell (env : Env) (options : CollectorOptions) (note : DidaNote) (store : CollectorStore)
    (x : CollectorChoice) : CollectorCall → Prop
  | .getInboxTasks token =>
    TitlesTell env options.isHttpUrl note.saved store.published
      (tasksOf (x.answer (.getInboxTasks token)))
  | _ => True

instance (env : Env) (options : CollectorOptions) (note : DidaNote) (store : CollectorStore)
    (x : CollectorChoice) : (call : CollectorCall) →
      Decidable (titlesTell env options note store x call)
  | .getInboxTasks token => inferInstanceAs (Decidable (TitlesTell env options.isHttpUrl note.saved
      store.published (tasksOf (x.answer (.getInboxTasks token)))))
  | .worker _ | .getState _ | .getUpdates .. | .arrange _ | .getFile .. | .downloadFile ..
  | .upload .. | .writeFile .. | .deleteTask .. => isTrue trivial

/-- Runs of collection jobs, each at its place, on one store. -/
def DidaRuns.start {ι : Type} (env : Env) (handler : HandlerOptions) (options : CollectorOptions)
    (jobs : ι → QueueJob) (shadow : ι → Bool) (store : CollectorStore) : DidaRuns ι where
  pool :=
    { shared := store
      procs := fun i => some (collectorRun env handler options (jobs i) (shadow i) .dida) }
  notes _ := .start

/-- What a run of the collector keeps to. -/
def didaContract (env : Env) (options : CollectorOptions) :
    Contract CollectorCall CollectorCall.Answer DidaNote where
  asks note
    | .getState _ | .getInboxTasks _ => note.handed = false ∧ note.deleted = []
    | .worker (.publishJobs jobs) =>
      JobsOf env (parseDidaTasks options.isHttpUrl note.tasks note.saved).items jobs
    | .deleteTask _ task => note.handed = true ∧
      task ∈ (parseDidaTasks options.isHttpUrl note.tasks note.saved).deleteTasks
    | .worker _ => True
    | _ => False
  learns note call answer note' := note' = note.next call answer

section Contract

variable {env : Env} {options : CollectorOptions}

/-- The run of the handler and the run down to the calls of the collector, side by side. -/
inductive DidaSide (options : CollectorOptions) :
    CollectorProg Unit → CollectNote → DidaNote → Prop
  | before {kept note} (free : note.handed = false) (idle : note.deleted = []) :
      DidaSide options kept ⟨none, false⟩ note
  | after {token stateKey result note} (same : result = didaResult stateKey
        (parseDidaTasks options.isHttpUrl note.tasks note.saved)) :
      DidaSide options
        (deleteTasks token (parseDidaTasks options.isHttpUrl note.tasks note.saved).deleteTasks)
        ⟨some result, note.handed⟩ note

theorem meets_deleteTasks (token : String) {tasks : List DeleteTask} {note : DidaNote}
    (hhanded : note.handed = true)
    (htasks : ∀ task ∈ tasks,
      task ∈ (parseDidaTasks options.isHttpUrl note.tasks note.saved).deleteTasks) :
    (deleteTasks token tasks).Meets (didaContract env options)
      (fun note' _ => ∃ deleted, note' = { note with deleted }) note := by
  induction tasks generalizing note with
  | nil => exact ⟨note.deleted, rfl⟩
  | cons task tasks ih =>
    refine ⟨⟨hhanded, htasks task List.mem_cons_self⟩, fun reply note' hnote => ?_⟩
    obtain rfl : note' = { note with deleted := task :: note.deleted } := hnote
    cases reply with
    | error e => exact ⟨_, rfl⟩
    | ok status =>
      dsimp only
      split
      · exact ⟨_, rfl⟩
      · exact @ih { note with deleted := task :: note.deleted } hhanded
          fun other hother => htasks other (List.mem_cons_of_mem _ hother)

theorem meets_collectDida {note : DidaNote} (hfree : note.handed = false)
    (hnone : note.deleted = []) :
    (collectDida env options).Meets (didaContract env options)
      (fun note' reply => note'.handed = false ∧ note'.deleted = [] ∧
        ∀ result kept, reply = .ok (result, kept) → ∃ token stateKey,
          kept = deleteTasks token
            (parseDidaTasks options.isHttpUrl note'.tasks note'.saved).deleteTasks ∧
          result = didaResult stateKey
            (parseDidaTasks options.isHttpUrl note'.tasks note'.saved)) note := by
  unfold collectDida
  split
  · exact ⟨hfree, hnone, fun _ _ h => by cases h⟩
  · refine ⟨⟨hfree, hnone⟩, fun reply note' hnote => ?_⟩
    cases reply with
    | error e =>
      obtain rfl : note' = note := hnote
      exact ⟨hfree, hnone, fun _ _ h => by cases h⟩
    | ok state =>
      obtain rfl : note' =
        { note with saved := readStringArray state "savedTitles", tasks := [] } := hnote
      refine ⟨⟨hfree, hnone⟩, fun reply note' hnote => ?_⟩
      obtain rfl : note' = _ := hnote
      cases hreply : jsonReply reply with
      | error e =>
        simp only [DidaNote.next, hreply]
        exact ⟨hfree, hnone, fun _ _ h => by cases h⟩
      | ok payload =>
        simp only [DidaNote.next, tasksOf, hreply]
        refine ⟨hfree, hnone, ?_⟩
        rintro result kept ⟨rfl⟩
        exact ⟨_, _, rfl, rfl⟩

theorem meets_collectorRun_dida (handler : HandlerOptions) (job : QueueJob) (shadow : Bool) :
    (collectorRun env handler options job shadow .dida).Meets (didaContract env options)
      (fun _ _ => True) .start := by
  refine (Prog.Meets.expand (DidaSide options) ?_ (.before rfl rfl)
    (meets_collectSource handler job shadow)).mono fun _ _ _ => trivial
  intro kept note note' call hside hasks
  cases call with
  | collect source =>
    obtain ⟨rfl, rfl⟩ := hasks
    cases hside with
    | before hfree hidle =>
      refine Prog.Meets.bind ((meets_collectDida hfree hidle).mono ?_)
      rintro note'' reply ⟨hfree', hidle', hreply⟩
      cases reply with
      | error e => exact ⟨_, rfl, .before hfree' hidle'⟩
      | ok reply =>
        obtain ⟨result, kept'⟩ := reply
        obtain ⟨token, stateKey, rfl, hresult⟩ := hreply result kept' rfl
        refine ⟨_, rfl, ?_⟩
        rw [← hfree']
        exact .after hresult
  | afterCommit =>
    cases hside with
    | before hfree hidle => cases (show false = true from hasks)
    | @after token stateKey result _ hsame =>
      have hhanded : note'.handed = true := hasks
      refine Prog.Meets.bind ((meets_deleteTasks _ hhanded fun task htask => htask).mono ?_)
      rintro note'' reply ⟨deleted, rfl⟩
      refine ⟨_, rfl, ?_⟩
      exact @DidaSide.after options token stateKey result { note' with deleted } hsame
  | publishJobs jobs =>
    obtain ⟨result, hresult, hjobs⟩ := hasks
    cases hside with
    | before hfree hidle => cases hresult
    | @after token stateKey _ _ hsame =>
      cases hresult
      subst hsame
      refine ⟨hjobs, fun reply note'' hnote => ?_⟩
      obtain rfl : note'' = _ := hnote
      cases reply with
      | error e => exact ⟨_, rfl, .after rfl⟩
      | ok queued =>
        exact ⟨_, rfl, @DidaSide.after options token stateKey _ { note' with handed := true } rfl⟩
  | consumeRateLimit | consumeRateLimits | startDelivery | awaitDelivery => cases hasks
  | _ =>
    refine ⟨trivial, fun reply note'' hnote => ?_⟩
    obtain rfl : note'' = note' := hnote
    exact ⟨_, rfl, hside⟩

end Contract

section Runs

variable {ι : Type} [DecidableEq ι]

/-- The runs as a machine. -/
def didaMachine : Machine (DidaRuns ι) (ι × CollectorChoice) Unit :=
  Watched.machine CollectorStore.serve fun note _ call answer _ => note.next call answer

/-- What a run has asked to be deleted is a task with a link, and that link has been published. -/
structure DeletesPublished (env : Env) (options : CollectorOptions) (published : List QueueJob)
    (tasks : List Json) (task : DeleteTask) : Prop where
  linked : ∃ raw ∈ tasks, didaDelete (Json.record (some raw)) = some task ∧
    (didaLink options.isHttpUrl (Json.record (some raw))).isSome
  published : ∀ raw ∈ tasks, didaDelete (Json.record (some raw)) = some task →
    ∀ pair, didaLink options.isHttpUrl (Json.record (some raw)) = some pair →
      LinkPublished env published pair.url

/-- What each run has asked to be deleted had been published. -/
def DidaRuns.Safe (env : Env) (options : CollectorOptions) (w : DidaRuns ι) : Prop :=
  ∀ i, ∀ task ∈ (w.notes i).deleted,
    DeletesPublished env options w.pool.shared.published (w.notes i).tasks task

/-- What a run knows of the store. -/
structure DidaKnows (env : Env) (options : CollectorOptions) (store : CollectorStore)
    (note : DidaNote) : Prop where
  told : TitlesTell env options.isHttpUrl note.saved store.published note.tasks
  handed : note.handed = true → ∀ url, GoesOut options.isHttpUrl note.saved note.tasks url →
    LinkPublished env store.published url
  deleted : ∀ task ∈ note.deleted, DeletesPublished env options store.published note.tasks task

section Knows

variable {env : Env} {options : CollectorOptions} {store store' : CollectorStore} {note : DidaNote}

theorem TitlesTell.mono {isHttpUrl : String → Bool} {saved : List String}
    {published published' : List QueueJob} {tasks : List Json}
    (h : TitlesTell env isHttpUrl saved published tasks) (hsub : published ⊆ published') :
    TitlesTell env isHttpUrl saved published' tasks := by
  intro raw hraw pair hpair hdelete hsaved
  exact (h raw hraw pair hpair hdelete hsaved).imp_left fun hlink => hlink.mono hsub

theorem DidaKnows.mono (h : DidaKnows env options store note)
    (hsub : store.published ⊆ store'.published) : DidaKnows env options store' note where
  told := h.told.mono hsub
  handed hhanded url hurl := (h.handed hhanded url hurl).mono hsub
  deleted task htask :=
    { linked := (h.deleted task htask).linked
      published := fun raw hraw hdelete pair hpair =>
        ((h.deleted task htask).published raw hraw hdelete pair hpair).mono hsub }

/-- Once its jobs are out, a run may delete. -/
theorem DidaKnows.deletes (h : DidaKnows env options store note) (hhanded : note.handed = true)
    {task : DeleteTask}
    (htask : task ∈ (parseDidaTasks options.isHttpUrl note.tasks note.saved).deleteTasks) :
    DeletesPublished env options store.published note.tasks task := by
  obtain ⟨raw, hraw, hlink, hdelete⟩ := mem_deleteTasks.mp htask
  refine ⟨⟨raw, hraw, hdelete, hlink⟩, fun raw hraw hdelete pair hpair => ?_⟩
  by_cases hsaved : didaTitle (Json.record (some raw)) ∈ note.saved
  · rcases h.told raw hraw pair hpair (by rw [hdelete]; rfl) hsaved with hlink | hgoes
    · exact hlink
    · exact h.handed hhanded _ hgoes
  · exact h.handed hhanded _ ⟨raw, hraw, hsaved, by rw [hpair]; rfl⟩

/-- The links that go out are among the jobs. -/
theorem linkPublished_of_goesOut (hfree : env.CollisionFree) {jobs : List QueueJob}
    (hjobs : JobsOf env (parseDidaTasks options.isHttpUrl note.tasks note.saved).items jobs)
    {url : String} (h : GoesOut options.isHttpUrl note.saved note.tasks url) :
    LinkPublished env jobs url := by
  obtain ⟨raw, hraw, hsaved, hurl⟩ := h
  obtain ⟨pair, hpair, rfl⟩ := Option.map_eq_some_iff.mp hurl
  exact hjobs.linkPublished hfree (mem_didaItems.mpr ⟨raw, hraw, pair, hpair, hsaved, rfl⟩)

/-- A call keeps what the run knows. -/
theorem DidaKnows.next (hfree : env.CollisionFree) {x : CollectorChoice} {call : CollectorCall}
    (hallows : titlesTell env options note store x call) (h : DidaKnows env options store note)
    (hasks : (didaContract env options).asks note call) :
    DidaKnows env options (CollectorStore.serve x store call).1
      (note.next call (CollectorStore.serve x store call).2) := by
  have hmono := h.mono (CollectorStore.serve_published x store call)
  -- the state and the list begin anew; a publication hands its links out
  cases call with
  | getState key =>
    obtain ⟨hhanded, hidle⟩ := hasks
    cases hanswer : x.answer (.getState key) with
    | error e => simpa [CollectorStore.serve, hanswer, DidaNote.next] using hmono
    | ok _ =>
      simp only [CollectorStore.serve, hanswer, DidaNote.next]
      refine ⟨?_, ?_, ?_⟩
      · intro raw hraw
        cases hraw
      · intro hyes
        cases hhanded.symm.trans hyes
      · intro task htask
        rw [hidle] at htask
        cases htask
  | getInboxTasks token =>
    obtain ⟨hhanded, hidle⟩ := hasks
    refine ⟨hallows, ?_, ?_⟩
    · intro hyes
      cases hhanded.symm.trans hyes
    · intro task htask
      have hold : task ∈ note.deleted := htask
      rw [hidle] at hold
      cases hold
  | deleteTask token task =>
    obtain ⟨hhanded, htask⟩ := hasks
    refine ⟨h.told, h.handed, fun other hother => ?_⟩
    rcases List.mem_cons.mp hother with rfl | hold
    · exact h.deletes hhanded htask
    · exact h.deleted other hold
  | worker call =>
    cases call with
    | publishJobs jobs =>
      cases hanswer : x.answer (.worker (.publishJobs jobs)) with
      | error e =>
        simp only [CollectorStore.serve, hanswer, DidaNote.next] at hmono ⊢
        exact hmono
      | ok queued =>
        have hserve : (CollectorStore.serve x store (.worker (.publishJobs jobs))).1.published =
            store.published ++ jobs := by
          simp [CollectorStore.serve, CollectorChoice.takes, hanswer, Except.isOk, Except.toBool]
        refine ⟨?_, fun _ url hurl => ?_, ?_⟩
        · simpa [CollectorStore.serve, hanswer, DidaNote.next] using hmono.told
        · rw [hserve]
          -- what goes out is published in this call
          refine (linkPublished_of_goesOut hfree hasks ?_).mono (List.subset_append_right _ _)
          simpa [CollectorStore.serve, hanswer, DidaNote.next] using hurl
        · simpa [CollectorStore.serve, hanswer, DidaNote.next] using hmono.deleted
    | _ => exact hmono
  | _ => cases hasks

end Knows

/-- What holds in every run whose steps all meet the condition. -/
def didaOutline (env : Env) (hfree : env.CollisionFree) (options : CollectorOptions) :
    ProofOutline (ι := ι) (α := Except Thrown JobHandlerResult) CollectorStore.serve
      fun (note : DidaNote) (_ : CollectorStore) call answer _ => note.next call answer :=
  ProofOutline.ofCalls (didaContract env options) (fun _ _ _ => True) (titlesTell env options)
    (fun _ => True) (DidaKnows env options)
    (fun _ _ _ _ hallows _ hknows hasks => ⟨trivial, hknows.next hfree hallows hasks, rfl⟩)
    (fun _ store x call _ _ _ _ _ hother =>
      hother.mono (CollectorStore.serve_published x store call))

omit [DecidableEq ι] in
theorem didaOutline_start {env : Env} (hfree : env.CollisionFree) (handler : HandlerOptions)
    (options : CollectorOptions) (jobs : ι → QueueJob) (shadow : ι → Bool)
    (store : CollectorStore) :
    (didaOutline env hfree options).Holds
      (DidaRuns.start env handler options jobs shadow store) := by
  refine ⟨trivial, fun i p hp => ?_⟩
  obtain rfl := Option.some.inj hp
  refine ⟨⟨?_, ?_, ?_⟩, meets_collectorRun_dida handler (jobs i) (shadow i)⟩
  · intro raw hraw
    cases hraw
  · intro hhanded
    cases hhanded
  · intro task htask
    cases htask

/-- **What runs delete has been published**, as long as no task to delete comes under a saved title
with a link of its own; and where one does, the list has a task to delete whose link was not
published, and does not go out. -/
theorem didaRuns_deletes_published {env : Env} (hfree : env.CollisionFree)
    (handler : HandlerOptions) (options : CollectorOptions) :
    (∀ (jobs : ι → QueueJob) (shadow : ι → Bool) (store : CollectorStore)
      (steps : List (ι × CollectorChoice)),
      didaMachine.Admits (Watched.Allowed (titlesTell env options))
        (DidaRuns.start env handler options jobs shadow store) steps →
      (didaMachine.run (DidaRuns.start env handler options jobs shadow store) steps).Safe env
        options) ∧
    ∀ (saved : List String) (published : List QueueJob) (tasks : List Json),
      (∀ raw ∈ tasks, ∀ pair, Deletes options.isHttpUrl raw pair →
        LinkPublished env published pair.url ∨
          ∃ tags title, DispatchItem.link tags title pair.url ∈
            (parseDidaTasks options.isHttpUrl tasks saved).items) ↔
      TitlesTell env options.isHttpUrl saved published tasks := by
  constructor
  · intro jobs shadow store steps hsteps i task htask
    have hholds := ProofOutline.run
      (didaOutline_start hfree handler options jobs shadow store) hsteps
    obtain ⟨p, hp⟩ := Option.isSome_iff_exists.mp (Watched.procs_run
      (w := DidaRuns.start env handler options jobs shadow store) (i := i) rfl steps)
    exact (hholds.2 i p hp).1.deleted task htask
  · intro saved published tasks
    constructor
    · intro h raw hraw pair hpair hdelete _
      rcases h raw hraw pair ⟨hdelete, hpair⟩ with hlink | ⟨tags, title, hitem⟩
      · exact Or.inl hlink
      · obtain ⟨other, hother, found, hfound, hsaved, hsame⟩ := mem_didaItems.mp hitem
        have hurl : pair.url = found.url := (DispatchItem.link.inj hsame).2.2
        exact Or.inr ⟨other, hother, hsaved, by rw [hfound, hurl]; rfl⟩
    · intro h raw hraw pair hdeletes
      by_cases hsaved : didaTitle (Json.record (some raw)) ∈ saved
      · refine (h raw hraw pair hdeletes.2 hdeletes.1 hsaved).imp_right ?_
        rintro ⟨other, hother, hnew, hurl⟩
        obtain ⟨found, hfound, hsame⟩ := Option.map_eq_some_iff.mp hurl
        rw [← hsame]
        exact ⟨_, _, mem_didaItems.mpr ⟨other, hother, found, hfound, hnew, rfl⟩⟩
      · exact Or.inr ⟨_, _, mem_didaItems.mpr ⟨raw, hraw, pair, hdeletes.2, hsaved, rfl⟩⟩

end Runs

/-! ## Two tasks under one title -/

namespace SavedTitle

open PlainCollectors

/-- A task with the title "read". -/
def task (id link : String) : Json :=
  .obj [("id", .str id), ("projectId", .str "inbox"), ("title", .str "read"),
    ("content", .str link)]

/-- Every list of tasks is the given one. -/
def tasks (task : Json) (_ : CollectorCall) : Json := .obj [("tasks", .arr [task])]

/-- Two runs, one after the other, that get one task each. -/
def steps : List (Bool × CollectorChoice) :=
  List.replicate 7 (step false (tasks (task "1" "http://a"))) ++
    List.replicate 5 (step true (tasks (task "2" "http://b")))

def runs : DidaRuns Bool := DidaRuns.start env handler options (fun _ => job) (fun _ => false) store

/-- The first run deletes the task whose link it has published. -/
theorem didaRuns_deletes_published_first :
    (didaMachine.run runs (steps.take 7)).Safe env options ∧
      ((didaMachine.run runs (steps.take 7)).notes false).deleted = [⟨"1", "inbox"⟩] :=
  ⟨(didaRuns_deletes_published collisionFree handler options).1 _ _ store _ (by decide +kernel),
    by decide +kernel⟩

/-- The second run deletes its task, whose link nobody has published. -/
theorem unpublished_deleted : ¬ (didaMachine.run runs steps).Safe env options := by
  intro hsafe
  have hdeleted : (⟨"2", "inbox"⟩ : DeleteTask) ∈ ((didaMachine.run runs steps).notes true).deleted := by
    decide +kernel
  have hlink := (hsafe true _ hdeleted).published (task "2" "http://b") (by decide +kernel)
    (by decide +kernel) ⟨"read", "http://b"⟩ (by decide +kernel)
  exact absurd hlink (by decide +kernel)

end SavedTitle

end InboxServer
