import InboxServer.Worker.ArticleArchive
import InboxServer.Properties.HandlerEffects

/-!
# The phase in which an archive fails

* `archive_decides_effect` — the archiver never throws, its failures say whether the write was
  started, and the handler records an effect as uncertain exactly where it was
-/

namespace InboxServer

open Infra

/-! ## Calls of the archiver -/

/-- `repository.save` is called. -/
def savesArticle : ArchiveEvent → Bool
  | ⟨.save _, _⟩ => true
  | _ => false

/--
What follows the start of the write throws a `ZhihuApiRejectedError` of its own, with a status that
a client is to blame for. The class is private to the archiver, which throws it before the write.
-/
def rejectsLate : ArchiveEvent → Bool
  | ⟨.save _, .error (.zhihuRejected status)⟩ => status < 500
  | ⟨.mirror .., .error (.zhihuRejected status)⟩ => status < 500
  | ⟨.recordEvent event, .error (.zhihuRejected status)⟩ =>
    status < 500 && (event.status = "committed" || event.status = "exists")
  | _ => false

/-- What has happened so far: the write was started, and something threw late. -/
structure WritePhase where
  saved : Bool
  late : Bool

def phaseProtocol : Protocol ArchiveCall ArchiveCall.Answer WritePhase where
  pre _ _ := True
  rely _ _ := True
  post phase c r := ⟨phase.saved || savesArticle ⟨c, r⟩, phase.late || rejectsLate ⟨c, r⟩⟩

theorem phase_after (phase : WritePhase) (trace : List ArchiveEvent) :
    phaseProtocol.after phase trace =
      ⟨phase.saved || trace.any savesArticle, phase.late || trace.any rejectsLate⟩ := by
  induction trace generalizing phase with
  | nil => simp
  | cons e trace ih =>
    rw [Protocol.after_cons, ih]
    simp [phaseProtocol, Bool.or_assoc]

/-- The phase before the write. -/
def WritePhase.unwritten : WritePhase := ⟨false, false⟩

/-- Nothing is written, and nothing threw late. -/
def Unwritten {α : Type} (phase : WritePhase) (_ : α) : Prop := phase = .unwritten

theorem phase_idle {phase : WritePhase} {c : ArchiveCall} {r : c.Answer}
    (hsave : savesArticle ⟨c, r⟩ = false) (hlate : rejectsLate ⟨c, r⟩ = false) :
    phaseProtocol.post phase c r = phase := by
  simp [phaseProtocol, hsave, hlate]

/-- An event about anything but a saved file moves nothing. -/
theorem phase_recordEvent (options : ArchiverOptions) {event : ArticleEvent} {phase : WritePhase}
    (h : event.status ≠ "committed" ∧ event.status ≠ "exists") :
    (recordEvent options event).Follows phaseProtocol (fun phase' _ => phase' = phase) phase := by
  unfold recordEvent
  split
  · refine ⟨trivial, fun reply _ => phase_idle rfl ?_⟩
    rcases reply with (status | message | _) | _ <;> simp [rejectsLate, h.1, h.2]
  · rfl

/-- The extraction of an article writes nothing. -/
theorem phase_extract (env : ArchiveEnv) (options : ArchiverOptions) (item : ArticleItem) :
    (extract env options item).Follows phaseProtocol Unwritten .unwritten := by
  unfold extract
  split
  · rfl
  · have hzhihu : (extractZhihu options item).Follows phaseProtocol Unwritten .unwritten := by
      unfold extractZhihu
      split
      · rfl
      · split
        · refine ⟨trivial, fun reply _ => ?_⟩
          rcases reply with e | _ | credential
          · rfl
          · rfl
          · exact ⟨trivial, fun _ _ => rfl⟩
        · rfl
    exact hzhihu.andThen (fun phase article h => h) fun phase e h => h
  · have hpage : (extractPage env options item).Follows phaseProtocol Unwritten .unwritten := by
      refine ⟨trivial, fun direct _ => ?_⟩
      dsimp only
      split
      · rfl
      · exact ⟨trivial, fun _ _ => rfl⟩
    exact hpage.andThen (fun phase article h => h) fun phase e h => h

theorem phase_draft (env : ArchiveEnv) (options : ArchiverOptions) (item : ArticleItem)
    (article : ExtractedArticle) :
    (draft env options item article).Follows phaseProtocol Unwritten .unwritten := by
  refine ⟨trivial, fun archivedAt _ => ⟨trivial, fun reply _ => ?_⟩⟩
  cases reply with
  | error e => rfl
  | ok template =>
    dsimp only
    split
    · rfl
    · split <;> rfl

theorem phase_prepare (env : ArchiveEnv) (options : ArchiverOptions) (item : ArticleItem) :
    (prepare env options item).Follows phaseProtocol Unwritten .unwritten := by
  refine (phase_extract env options item).andThen (fun phase extracted h => ?_) fun phase e h => h
  obtain rfl : phase = .unwritten := h
  obtain ⟨article, failure⟩ := extracted
  cases failure with
  | some failure =>
    exact (phase_recordEvent options (by simp)).andThen (fun phase _ h => h) fun phase e h => h
  | none =>
    exact (phase_draft env options item article).andThen (fun phase _ h => h) fun phase e h => h

/-- How the write ends: it was started, and a failure of it has no status but one to be unsure of. -/
def WriteEnds (phase : WritePhase) : Except ArchiveError Unit → Prop
  | .ok () => phase.saved = true
  | .error e => phase.saved = true ∧
    (e.upstreamStatus.all (500 ≤ ·) = true ∨ phase.late = true)

/-- A file is written once, or what is not certain is said to be so. -/
theorem phase_write (env : ArchiveEnv) (options : ArchiverOptions) (item : ArticleItem)
    (file : ArticleFile) (title : String) :
    (write env options item file title).Follows phaseProtocol WriteEnds .unwritten := by
  have hstatus : ∀ status : Nat, 500 ≤ status ∨ status < 500 := fun status => by omega
  refine ⟨trivial, fun reply _ => ?_⟩
  rcases reply with (status | message | _) | saved
  · rcases hstatus status with h | h <;>
      simp [WriteEnds, phaseProtocol, savesArticle, rejectsLate, ArchiveError.upstreamStatus, h]
  · simp [WriteEnds, phaseProtocol, savesArticle, ArchiveError.upstreamStatus]
  · simp [WriteEnds, phaseProtocol, savesArticle, ArchiveError.upstreamStatus]
  · have hrecord : ∀ event : ArticleEvent,
        event.status = (if saved.created then "committed" else "exists") →
        (recordEvent options event).Follows phaseProtocol WriteEnds ⟨true, false⟩ := by
      intro event hevent
      have hsaved : event.status = "committed" ∨ event.status = "exists" := by
        rw [hevent]
        split <;> simp
      unfold recordEvent
      split
      · refine ⟨trivial, fun reply _ => ?_⟩
        rcases reply with (status | message | _) | _
        · rcases hstatus status with h | h <;>
            simp [WriteEnds, phaseProtocol, rejectsLate, ArchiveError.upstreamStatus, h, hsaved]
        · simp [WriteEnds, phaseProtocol, ArchiveError.upstreamStatus]
        · simp [WriteEnds, phaseProtocol, ArchiveError.upstreamStatus]
        · simp [WriteEnds, phaseProtocol]
      · rfl
    have hmirror : (mirrorFile options { file with filename := saved.filename } title).Follows
        phaseProtocol (fun phase result => WriteEnds phase result ∧
          (result = .ok () → phase = ⟨true, false⟩)) ⟨true, false⟩ := by
      unfold mirrorFile
      split
      · refine ⟨trivial, fun reply _ => ?_⟩
        rcases reply with (status | message | _) | _
        · rcases hstatus status with h | h <;>
            simp [WriteEnds, phaseProtocol, rejectsLate, ArchiveError.upstreamStatus, h]
        · simp [WriteEnds, phaseProtocol, ArchiveError.upstreamStatus]
        · simp [WriteEnds, phaseProtocol, ArchiveError.upstreamStatus]
        · exact ⟨rfl, fun _ => rfl⟩
      · exact ⟨rfl, fun _ => rfl⟩
    refine Prog.Follows.andThen hmirror (fun phase _ h => ?_) fun phase e h => h.1
    rw [h.2 rfl]
    exact hrecord _ rfl

/-- How the archiver ends. -/
def ArchiveEnds (phase : WritePhase) (result : Except ArchiveError DeliveryResult) : Prop :=
  result = .ok .ok ∨ ∃ reasonCode status, result = .ok (.fail (!phase.saved) reasonCode status) ∧
    (phase.saved = true → status.all (500 ≤ ·) = true ∨ phase.late = true)

theorem phase_archiveFailed (env : ArchiveEnv) (options : ArchiverOptions) (item : ArticleItem)
    (e : ArchiveError) {phase : WritePhase}
    (h : phase.saved = true → e.upstreamStatus.all (500 ≤ ·) = true ∨ phase.late = true) :
    (archiveFailed env options item phase.saved e).Follows phaseProtocol ArchiveEnds phase := by
  refine Prog.Follows.bind ((phase_recordEvent options ?_).mono fun phase' result hphase => ?_)
  · cases phase.saved <;> simp
  · rw [hphase]
    exact Or.inr ⟨_, _, rfl, h⟩

/-- An archive ends as its phase allows. -/
theorem archive_follows (env : ArchiveEnv) (options : ArchiverOptions) (item : ArticleItem) :
    (archiveArticle env options item).Follows phaseProtocol ArchiveEnds .unwritten := by
  refine Prog.Follows.bind ((phase_prepare env options item).mono fun phase result hphase => ?_)
  obtain rfl : phase = .unwritten := hphase
  rcases result with e | _ | ⟨file, title⟩
  · have hfailed := phase_archiveFailed env options item e
      (show WritePhase.unwritten.saved = true → _ by simp [WritePhase.unwritten])
    exact hfailed
  · exact Or.inl rfl
  · refine Prog.Follows.bind ((phase_write env options item file title).mono
      fun phase result hphase => ?_)
    rcases result with e | _
    · obtain ⟨hsaved, hstatus⟩ := hphase
      have hfailed := phase_archiveFailed env options item e fun _ => hstatus
      rw [hsaved] at hfailed
      exact hfailed
    · exact Or.inl rfl

/-! ## What the handler records -/

/-- The outcome that is recorded, by whether the article was written and how the archiver ended. -/
def archiveOutcome (saved : Bool) (ended : DeliveryResult) : EffectOutcome :=
  if ended = .ok then .done else if saved then .uncertain else .failed

/-- The verdict on an archive follows from its phase and its end. -/
theorem verdict_of_archiveEnds {phase : WritePhase} {ended : DeliveryResult}
    (h : ArchiveEnds phase (.ok ended)) (hlate : phase.late = false) :
    (deliveryVerdict (.ok ended)).1.outcome = archiveOutcome phase.saved ended := by
  rcases h with hok | ⟨reasonCode, status, hfail, hstatus⟩
  · rw [Except.ok.inj hok]
    rfl
  · rw [Except.ok.inj hfail]
    cases hsaved : phase.saved with
    | false => simp [deliveryVerdict, outcomeUnknown, archiveOutcome]
    | true =>
      have hunknown : status.all (500 ≤ ·) = true :=
        (hstatus hsaved).resolve_right (by simp [hlate])
      simp [deliveryVerdict, outcomeUnknown, archiveOutcome, hunknown]

/--
**The phase in which an archive fails decides the status of its effect**, as long as nothing that
follows the start of the write throws the rejection that the archiver keeps for the API of Zhihu.
-/
theorem archive_decides_effect {env : ArchiveEnv} {options : ArchiverOptions} {item : ArticleItem}
    {trace : List ArchiveEvent} {result : Except ArchiveError DeliveryResult}
    (h : (archiveArticle env options item).Runs trace result)
    (hlate : ∀ e ∈ trace, rejectsLate e = false) :
    ∃ ended, result = .ok ended ∧
      (ended ≠ .ok → ∃ reasonCode status,
        ended = .fail (!trace.any savesArticle) reasonCode status) ∧
      ∀ (env' : Env) (options' : HandlerOptions) (input : Json) (before rest : List HandlerEvent)
        (delivery : Delivery) (result' : Except Thrown JobHandlerResult),
        (handle env' options' input).Runs (before ++ ⟨.awaitDelivery delivery, .ok ended⟩ :: rest)
          result' →
        ∃ finish reply rest', rest = ⟨.finishEffect delivery.effectKey finish, reply⟩ :: rest' ∧
          (finish.outcome = .uncertain ↔ trace.any savesArticle = true ∧ ended ≠ .ok) ∧
          (finish.outcome = .failed ↔ trace.any savesArticle = false ∧ ended ≠ .ok) ∧
          (finish.outcome = .done ↔ ended = .ok) := by
  have hends := (h.obeys (archive_follows env options item) fun _ _ => trivial).2
  rw [phase_after] at hends
  have hnone : trace.any rejectsLate = false := by simpa using hlate
  have hresult : ∃ ended, result = .ok ended := by
    rcases hends with hok | ⟨reasonCode, status, hfail, -⟩
    · exact ⟨_, hok⟩
    · exact ⟨_, hfail⟩
  obtain ⟨ended, rfl⟩ := hresult
  refine ⟨ended, rfl, fun hnot => ?_, ?_⟩
  · rcases hends with hok | ⟨reasonCode, status, hfail, -⟩
    · exact absurd (Except.ok.inj hok) hnot
    · exact ⟨reasonCode, status, by simpa [WritePhase.unwritten] using Except.ok.inj hfail⟩
  · intro env' options' input before rest delivery result' hrun
    obtain ⟨reply, rest', rfl⟩ := recorded_next hrun
    refine ⟨_, reply, rest', rfl, ?_⟩
    rw [verdict_of_archiveEnds hends (by simpa [WritePhase.unwritten] using hnone)]
    simp only [WritePhase.unwritten, Bool.false_or]
    by_cases hok : ended = .ok <;> cases trace.any savesArticle <;> simp [archiveOutcome, hok]

/-! ## A write that throws -/

namespace SaveThrows

def archiveEnv : ArchiveEnv where
  parseUrl _ := some ⟨"example.com", "/a"⟩
  renderString template data :=
    if template = articleTemplateSource then .ok (fillArticle data) else .error .other
  toLowerCase text := String.ofList (text.toList.map Char.toLower)
  normalizeNfkc text := text
  isLetterOrNumber c := c.isAlphanum
  sha256Hex _ := "00"

def archiverOptions : ArchiverOptions where
  credentialName := none
  hasGetCredential := false
  hasMirror := false
  hasRecordEvent := true
  minVisibleCharacters := 3
  maxOutputBytes := 2097152

def article : ArticleItem := ⟨none, some "Title", "https://example.com/a"⟩

/-- The page is an article, and the write throws. -/
def answer (thrown : ArchiveError) : (c : ArchiveCall) → c.Answer
  | .getCredential _ => .ok none
  | .fetchZhihuArticle .. | .fetchAndExtract _ | .browserExtract _ =>
    .ok ⟨"", "Body text", "", "Title"⟩
  | .now => 1767600000000
  | .readTemplate => .ok articleTemplateSource
  | .save _ => .error thrown
  | .mirror .. | .recordEvent _ => .ok ()

/-- The run of the archiver in which the write throws. -/
def archiveRun (thrown : ArchiveError) : List ArchiveEvent × Except ArchiveError DeliveryResult :=
  (archiveArticle archiveEnv archiverOptions article).answered (answer thrown)

theorem archiveRun_runs (thrown : ArchiveError) :
    (archiveArticle archiveEnv archiverOptions article).Runs (archiveRun thrown).1
      (archiveRun thrown).2 := Prog.runs_answered _ _

/-! ### The handler around it -/

def handlerOptions : HandlerOptions where
  channels :=
    { archiveEnabled := true, articleArchive := TextToFlomo.articleArchive, destinations := []
      nodup := List.nodup_nil }
  hasArchive := true
  hasBrowser := true
  hasNotify := false

def item : DispatchItem := .article Sample.createdAt none none Sample.articleUrl

def effectKey : String := "article:1:article_archive"

def delivery : Delivery :=
  ⟨"article_archive", item, some ⟨"article:1", Sample.firstId⟩, effectKey⟩

/-- The article is within its limits and claimed, and the archiver is called. -/
def claimedRun : List HandlerEvent :=
  [⟨.now, TextToFlomo.current⟩,
    ⟨.consumeRateLimits (rateLimitInputs TextToFlomo.articleArchive item TextToFlomo.current),
      .ok (.allowed [("article:daily", 1), ("article:window", 1)])⟩,
    ⟨.claimEffect ⟨"article_archive", effectKey, Sample.firstId⟩, .ok (.claimed 1)⟩,
    ⟨.startDelivery delivery, ()⟩]

/-- The archiver has ended, and its end is recorded. -/
def recordedRun (ended : DeliveryResult) (finish : EffectResult) : List HandlerEvent :=
  claimedRun ++ ⟨.awaitDelivery delivery, .ok ended⟩ :: [⟨.finishEffect effectKey finish, .ok ()⟩]

def unreachable : DeliveryResult := .fail false (some "article_network_error") none

def unreachableFinish : EffectResult :=
  ⟨.uncertain, some .permanent, some "external delivery outcome uncertain"⟩

theorem unreachable_runs :
    (handle Sample.env handlerOptions (Sample.articleJob Sample.firstId).toJson).Runs
      (recordedRun unreachable unreachableFinish)
      (.ok (.uncertain "external_delivery_uncertain")) :=
  Prog.runs_of_replay (by decide +kernel)

theorem archive_decides_effect_unreachable :
    ∃ ended, (archiveRun (.error "connect ECONNREFUSED")).2 = .ok ended ∧ ended = unreachable ∧
      unreachableFinish.outcome = .uncertain := by
  obtain ⟨ended, hended, -, hrecorded⟩ :=
    archive_decides_effect (archiveRun_runs (.error "connect ECONNREFUSED")) (by decide +kernel)
  have hsame : ended = unreachable :=
    Except.ok.inj (hended.symm.trans (by decide +kernel))
  subst hsame
  obtain ⟨finish, reply, rest', hrest, huncertain, -, -⟩ :=
    hrecorded _ _ _ _ _ _ _ unreachable_runs
  have hfinish : unreachableFinish = finish := by
    have hhead := (List.cons.inj hrest).1
    cases hhead
    rfl
  refine ⟨_, hended, rfl, ?_⟩
  rw [hfinish]
  exact huncertain.mpr ⟨by decide +kernel, by decide⟩

/-- The article may be written, and the effect is recorded as failed. -/
theorem rejected_save_failed :
    ∃ trace ended finish, (archiveArticle archiveEnv archiverOptions article).Runs trace (.ok ended) ∧
      trace.any savesArticle = true ∧ ended ≠ .ok ∧
      (handle Sample.env handlerOptions (Sample.articleJob Sample.firstId).toJson).Runs
        (recordedRun ended finish) (.error (.error false "destination rejected request: 403")) ∧
      finish.outcome = .failed := by
  have hrun := archiveRun_runs (.zhihuRejected 403)
  have hended : (archiveRun (.zhihuRejected 403)).2 =
      .ok (.fail false (some "zhihu_api_rejected") (some 403)) := by decide +kernel
  rw [hended] at hrun
  refine ⟨_, _, ⟨.failed, some .permanent, some "destination rejected request: 403"⟩, hrun,
    by decide +kernel, by decide, Prog.runs_of_replay (by decide +kernel), rfl⟩

end SaveThrows

end InboxServer
