import InboxServer.Properties.Jobs
import InboxServer.Properties.Sample
import InboxServer.Properties.SyncRaces

/-!
# A request of a sync run, beside the jobs that it publishes

`requestSync` on PostgreSQL inserts the run, publishes its jobs, and marks the run as failed when
the publication throws. The jobs that were delivered are claimed and finished meanwhile.

* `ended_run_stays` — as long as no job reports after the failure was recorded, unless it is the
  last one of a run with a failed source, a run that has ended stays so, and a run whose publication
  has failed is failed
* `reopened_run` — a job of a publication that failed half way reopens the run
-/

namespace InboxServer.Postgres

open Infra D1

/-! ## What a finish reports -/

/-- A finish with the result ends the job, and its run is told. -/
def reports (jobId : String) (result : JobResult) (db : Db) (row : JobRow) : Bool :=
  !row.status.isTerminal &&
    match result with
    | .done _ => true
    | .failed errorClass _ payloadDigest =>
      decide (row.failureAttempts ≤ maxSafeInteger) && row.dies errorClass &&
        (deadLetterDigest (db.envelopes.lookup EnvelopeRow.jobId jobId) payloadDigest).isSome
    | .deferred .. | .uncertain _ => false

/-- The row whose run a finish tells of the result. -/
def reportingRow (jobId : String) (result : JobResult) (db : Db) : Option JobRow :=
  (db.jobs.lookup JobRow.jobId jobId).filter (reports jobId result db)

/-- A failure tells the run of the job only when the job dies. -/
theorem failJob_syncJobs {now : Instant} {jobId : String} {errorClass : Option JobErrorClass}
    {errorMessage payloadDigest : Option String} {row : JobRow} {db : Db}
    (hlive : row.status.isTerminal = false) :
    (transact db (failJob now jobId row (errorClass.getD .permanent) (errorMessageOf errorMessage)
      payloadDigest db)).1.syncJobs =
      if reports jobId (.failed errorClass errorMessage payloadDigest) db row then
        updateSyncJobCompletion row (deadReport (errorMessageOf errorMessage) now) db.syncJobs
      else db.syncJobs := by
  unfold failJob reports
  rw [hlive]
  by_cases hsafe : row.failureAttempts ≤ maxSafeInteger
  · simp only [safeInteger, if_pos hsafe, decideJobTransition_failed]
    by_cases hdies : row.dies errorClass = true
    · simp only [hdies, if_true, reduceCtorEq, if_false]
      unfold buryJob
      dsimp only
      cases hdigest : deadLetterDigest (db.envelopes.lookup EnvelopeRow.jobId jobId)
          payloadDigest with
      | none => simp [transact]
      | some digest => simp [transact, hsafe]
    · simp [hdies, transact]
  · simp [safeInteger, hsafe, transact]

/-- A finish tells the run of the job of its result, and no other. -/
theorem finishJob_syncJobs (now : Instant) (jobId : String) (result : JobResult) (db : Db) :
    (transact db (finishJob now jobId result db)).1.syncJobs =
      match reportingRow jobId result db, reportAt now result with
      | some row, some report => updateSyncJobCompletion row report db.syncJobs
      | _, _ => db.syncJobs := by
  unfold finishJob reportingRow
  cases hrow : db.jobs.lookup JobRow.jobId jobId with
  | none => rfl
  | some row =>
    dsimp only
    by_cases hterminal : row.status.isTerminal = true
    · have hquiet : reports jobId result db row = false := by simp [reports, hterminal]
      rw [if_pos hterminal, Option.filter_some, hquiet]
      rfl
    · rw [Bool.not_eq_true] at hterminal
      rw [if_neg (by simp [hterminal]), Option.filter_some]
      cases result with
      | done summary => simp [reports, hterminal, reportAt, transact]
      | deferred reason retryAt | uncertain reason => simp [reports, transact]
      | failed errorClass errorMessage payloadDigest =>
        dsimp only
        rw [failJob_syncJobs hterminal]
        split
        · rfl
        · rfl

/-! ## The steps of a request -/

/-- A call of `requestSync`: what it has read, and its random values. -/
structure SyncRequest where
  runId : RunId
  createdAt : Instant
  createdText : String
  enabled : SourceName → Bool
  jobIds : SourceName → String
  shadow : Bool
  triggeredBy : TriggeredBy

namespace SyncRequest

/-- The job of a source, as `buildCollectionJobs` makes it. -/
def job (request : SyncRequest) (source : SourceName) : QueueJob :=
  collectionJob request.createdText (request.jobIds source) request.runId request.shadow
    request.triggeredBy source

end SyncRequest

/-- Where a call of `requestSync` is. -/
inductive RequestPhase where
  | ready
  /-- The run is there, and `sendBatch` is at work. -/
  | sending
  | sent
  /-- `sendBatch` has thrown. -/
  | throwing
  /-- The failure was recorded, and the error of `sendBatch` thrown again. -/
  | reported
  /-- The `INSERT` has failed. -/
  | refused
  deriving DecidableEq

structure SyncRun where
  db : Db
  phase : RequestPhase
  /-- The sources whose jobs were delivered. -/
  delivered : SourceName → Bool

inductive SyncStep where
  | insert
  | deliver (source : SourceName)
  | sendEnds (succeeds : Bool)
  | recordFailure (message : String) (now : Instant)
  | claim (source : SourceName) (now : Instant) (iv : Bytes)
  | finish (source : SourceName) (now : Instant) (result : JobResult)

/-- The row of the request is inserted, or the call throws. -/
def SyncRun.insert (request : SyncRequest) (w : SyncRun) : SyncRun :=
  match w.db.syncJobs.insert?
      (.requested request.runId request.createdAt (enabledSources request.enabled)) with
  | none => { w with phase := .refused }
  | some syncJobs => { w with db := { w.db with syncJobs }, phase := .sending }

/-- A step of the request, or of a worker on a job that was delivered. -/
def SyncRun.step (env : Env) (request : SyncRequest) (w : SyncRun) : SyncStep → SyncRun
  | .insert => if w.phase = .ready then w.insert request else w
  | .deliver source =>
    if w.phase = .sending ∧ request.enabled source then
      { w with delivered := Function.update w.delivered source true }
    else w
  | .sendEnds succeeds =>
    if w.phase = .sending then { w with phase := if succeeds then .sent else .throwing } else w
  | .recordFailure message now =>
    if w.phase = .throwing then
      { w with
        db.syncJobs := w.db.syncJobs.update (fun row => row.id = request.runId.text)
          (SyncJobRow.setPublishFailed message now)
        phase := .reported }
    else w
  | .claim source now iv =>
    if w.delivered source then
      { w with db := (transact w.db (claimJob env now iv (request.job source).toJson w.db)).1 }
    else w
  | .finish source now result =>
    if w.delivered source then
      { w with db := (transact w.db (finishJob now (request.jobIds source) result w.db)).1 }
    else w

def syncMachine (env : Env) (request : SyncRequest) : Machine SyncRun SyncStep Unit where
  step w a := (w.step env request a, ())

/-- Before the request. -/
def SyncRun.start (db : Db) : SyncRun := { db, phase := .ready, delivered := fun _ => false }

/-- The run has ended. -/
def RunEnded (runId : RunId) (db : Db) : Prop :=
  ∃ row, syncRow runId db = some row ∧ row.finishedAt.isSome ∧
    (row.status = .done ∨ row.status = .failed)

/-- With the result of the source the run has all its results, and one of them is a failure. -/
def EndsFailed (enabled : SourceName → Bool) (source : SourceName) (result : JobResult)
    (run : SyncJobRow) : Prop :=
  (∀ other ∈ enabledSources enabled, other ≠ source →
    isTerminalSourceResult (run.stats.lookup other.name) = true) ∧
  (result.hasFailed = true ∨ ∃ other ∈ enabledSources enabled, other ≠ source ∧
    hasStatus "failed" (run.stats.lookup other.name) = true)

instance (enabled : SourceName → Bool) (source : SourceName) (result : JobResult)
    (run : SyncJobRow) : Decidable (EndsFailed enabled source result run) :=
  inferInstanceAs (Decidable (_ ∧ _))

/-- The report of a job comes before the failure is recorded, or ends the run as failed. -/
def SyncRun.InTime (request : SyncRequest) (w : SyncRun) : SyncStep → Prop
  | .finish source _ result =>
    w.phase = .reported → w.delivered source = true →
      ∀ row ∈ reportingRow (request.jobIds source) result w.db,
      ∀ run ∈ syncRow request.runId w.db, ∀ reporter ∈ enabledSources request.enabled,
        collectRun row = some (reporter.name, request.runId.text) →
          EndsFailed request.enabled reporter result run
  | .insert | .deliver _ | .sendEnds _ | .recordFailure .. | .claim .. => True

instance (request : SyncRequest) (w : SyncRun) (a : SyncStep) :
    Decidable (w.InTime request a) := by
  cases a with
  | finish source now result => exact inferInstanceAs (Decidable (_ → _))
  | insert | deliver | sendEnds | recordFailure | claim => exact inferInstanceAs (Decidable True)

/-! ## The row of the run -/

section Row

variable {runId : RunId} {enabled : SourceName → Bool} {run : SyncJobRow} {db db' : Db}

/-- The run was asked for the enabled sources, and has results of some of them. -/
structure HasResults (enabled : SourceName → Bool) (run : SyncJobRow) : Prop where
  queued : queuedNames run.stats = (enabledSources enabled).map SourceName.name
  recorded : ∀ source, enabled source = true → run.stats.lookup source.name = none ∨
    ∃ result, (recordedResult result).isSome ∧ run.stats.lookup source.name = recordedResult result

theorem HasResults.requested (createdAt : Instant) :
    HasResults enabled (.requested runId createdAt (enabledSources enabled)) := by
  refine ⟨?_, fun source _ => Or.inl ?_⟩
  · simp [SyncJobRow.requested, queuedNames, queuedStats, Json.record]
  · have hne : (source.name == "queued") = false := by simpa using name_ne_queued source
    simp [SyncJobRow.requested, queuedStats, List.lookup_cons, hne]

/-- Its progress is that of no results. -/
theorem settled_requested (createdAt : Instant) :
    (SyncJobRow.requested runId createdAt (enabledSources enabled)).Settled
      ((enabledSources enabled).map SourceName.name) := by
  refine ⟨createdAt, ?_⟩
  cases hsources : enabledSources enabled with
  | nil => rfl
  | cons source rest =>
    have hne : (source.name == "queued") = false := by simpa using name_ne_queued source
    have hopen : isTerminalSourceResult
        ((queuedStats (source :: rest)).lookup source.name) = false := by
      simp [queuedStats, List.lookup_cons, hne, isTerminalSourceResult, hasStatus, Json.record]
    simp [SyncJobRow.progress, SyncJobRow.requested, settledProgress, hopen]

/-- A run that has a result of every source has ended, as failed if one of them is a failure. -/
theorem HasResults.ended (h : HasResults enabled run)
    (hsettled : run.Settled ((enabledSources enabled).map SourceName.name))
    (hall : ∀ source ∈ enabledSources enabled,
      isTerminalSourceResult (run.stats.lookup source.name) = true) :
    run.finishedAt.isSome ∧
      run.status = if (enabledSources enabled).any fun source =>
        hasStatus "failed" (run.stats.lookup source.name) then .failed else .done := by
  have hresult : ∀ source, ∃ result, enabled source = true →
      (recordedResult result).isSome ∧
        run.stats.lookup source.name = recordedResult result := by
    intro source
    by_cases henabled : enabled source = true
    · rcases h.recorded source henabled with hnone | ⟨result, hrecorded⟩
      · have hterminal := hall source (mem_enabledSources.mpr henabled)
        rw [hnone] at hterminal
        cases hterminal
      · exact ⟨result, fun _ => hrecorded⟩
    · exact ⟨.done none, fun h => absurd h henabled⟩
  choose results hresults using hresult
  have hrecorded : ∀ source ∈ enabledSources enabled, (recordedResult (results source)).isSome ∧
      run.stats.lookup source.name = recordedResult (results source) :=
    fun source hsource => hresults source (mem_enabledSources.mp hsource)
  obtain ⟨hfinished, hstatus⟩ := hsettled.ended (fun source h => (hrecorded source h).1)
    fun source h => (hrecorded source h).2
  refine ⟨hfinished, hstatus.trans ?_⟩
  have hany : ((enabledSources enabled).any fun source => (results source).hasFailed) =
      (enabledSources enabled).any fun source =>
        hasStatus "failed" (run.stats.lookup source.name) := by
    rw [Bool.eq_iff_iff, List.any_eq_true, List.any_eq_true]
    refine exists_congr fun source => and_congr_right fun hsource => ?_
    rw [(hrecorded source hsource).2,
      hasStatus_failed_recordedResult (hrecorded source hsource).1]
  rw [hany]

/-- What has ended has all its results. -/
theorem Settled.allResults {queued : List String} (hsettled : run.Settled queued)
    (hfinished : run.finishedAt.isSome) :
    ∀ name ∈ queued, isTerminalSourceResult (run.stats.lookup name) = true := by
  obtain ⟨finishedAt, hprogress⟩ := hsettled
  by_cases hall : (queued.all fun source => isTerminalSourceResult (run.stats.lookup source)) = true
  · exact List.all_eq_true.mp hall
  · rw [settledProgress, if_neg hall] at hprogress
    have hopen : run.finishedAt = none := congrArg SyncJobProgress.finishedAt hprogress
    rw [hopen] at hfinished
    cases hfinished

/-- A report of a source, recorded in its run. -/
theorem HasResults.reported {row : JobRow} {source : SourceName} {result : JobResult}
    {report : SyncJobUpdate} {now : Instant} (h : HasResults enabled run)
    (hrun : syncRow runId db = some run)
    (hcollect : collectRun row = some (source.name, runId.text)) (henabled : enabled source = true)
    (hreport : reportAt now result = some report)
    (hdb : db'.syncJobs = updateSyncJobCompletion row report db.syncJobs) :
    ∃ after, syncRow runId db' = some after ∧ HasResults enabled after ∧
      after.Settled ((enabledSources enabled).map SourceName.name) ∧
      ∀ k, after.stats.lookup k = if k = source.name then recordedResult result
        else run.stats.lookup k := by
  have hcurrent : db'.syncJobs = D1.reported row (some run) report db.syncJobs := by
    have hlookup : db.syncJobs.lookup SyncJobRow.id runId.text = some run := hrun
    rw [hdb]
    unfold updateSyncJobCompletion D1.reported
    simp only [hcollect, hlookup]
  have hresult : (recordedResult result).isSome := by
    rw [recordedResult_eq hreport ""]
    rfl
  obtain ⟨results, rfl⟩ : ∃ results : SourceName → JobResult, results source = result :=
    ⟨fun _ => result, rfl⟩
  obtain ⟨after, hafter, hstats, hqueued, hsettled⟩ :=
    reported_current hcollect hrun h.queued henabled hreport hcurrent
  refine ⟨after, hafter, ⟨hqueued, fun other hother => ?_⟩, hsettled, hstats⟩
  rw [hstats]
  split
  · exact Or.inr ⟨_, hresult, rfl⟩
  · exact h.recorded other hother

/-- A result that comes to a run with all its results leaves it with all its results. -/
theorem terminal_of_reported {source : SourceName} {result : JobResult} {after : SyncJobRow}
    (hresult : (recordedResult result).isSome)
    (hstats : ∀ k, after.stats.lookup k = if k = source.name then recordedResult result
      else run.stats.lookup k)
    (hothers : ∀ other ∈ enabledSources enabled, other ≠ source →
      isTerminalSourceResult (run.stats.lookup other.name) = true) :
    ∀ other ∈ enabledSources enabled,
      isTerminalSourceResult (after.stats.lookup other.name) = true := by
  intro other hother
  rw [hstats]
  split
  · exact isTerminalSourceResult_recordedResult hresult
  · next hne => exact hothers other hother fun h => hne (congrArg SourceName.name h)

end Row

/-! ## What holds in between -/

/-- A collection job that parses is the one that was sent. -/
theorem parseQueueJob_collectionJob {zod : Zod} {createdAt jobId : String} {runId : RunId}
    {shadow : Bool} {triggeredBy : TriggeredBy} {source : SourceName} {job : QueueJob}
    (h : parseQueueJob zod (collectionJob createdAt jobId runId shadow triggeredBy source).toJson =
      some job) : job = collectionJob createdAt jobId runId shadow triggeredBy source := by
  have hkey : collectKey source runId ≠ "" := by
    intro hempty
    have := parseCollectKey_collectKey source runId
    rw [hempty] at this
    cases this
  by_cases hvalid : zod.datetime createdAt = true ∧ zod.uuid jobId = true
  · rw [parseQueueJob_toJson ⟨hvalid.1, hkey, hvalid.2, fun item hitem => by cases hitem⟩] at h
    exact (Option.some.inj h).symm
  · simp only [QueueJob.toJson, collectionJob, parseQueueJob, strict, List.lookup, parseFormat,
      Option.bind_eq_bind, Option.bind_eq_some_iff] at h
    simp at h
    obtain ⟨hdate, _, -, hid, -⟩ := h
    exact absurd ⟨hdate, hid⟩ hvalid

section Inv

variable {env : Env} {request : SyncRequest} {w : SyncRun}

/-- The row of the run, as the request and the jobs leave it. -/
def SyncRun.Shows (request : SyncRequest) (w : SyncRun) (run : SyncJobRow) : Prop :=
  HasResults request.enabled run ∧
    if w.phase = .reported then run.finishedAt.isSome ∧ run.status = .failed
    else run.Settled ((enabledSources request.enabled).map SourceName.name)

/-- What holds in every run in which all reports are in time. -/
structure SyncRun.Inv (request : SyncRequest) (w : SyncRun) : Prop where
  jobs : ∀ row ∈ w.db.jobs, ∀ source, row.jobId = request.jobIds source →
    ∃ other, request.enabled other = true ∧ row.dedupeKey = collectKey other request.runId
  delivered : ∀ source, w.delivered source = true →
    request.enabled source = true ∧ w.phase ≠ .ready ∧ w.phase ≠ .refused
  run : w.phase ≠ .ready → w.phase ≠ .refused →
    ∃ run, syncRow request.runId w.db = some run ∧ w.Shows request run

/-- A run that has ended is done or failed. -/
theorem SyncRun.Shows.ended {run : SyncJobRow} (h : w.Shows request run)
    (hfinished : run.finishedAt.isSome) : run.status = .done ∨ run.status = .failed := by
  obtain ⟨hhas, hphase⟩ := h
  split at hphase
  · exact Or.inr hphase.2
  · obtain ⟨-, hstatus⟩ := hhas.ended hphase fun source hsource =>
      Settled.allResults hphase hfinished _ (List.mem_map_of_mem hsource)
    rw [hstatus]
    split
    · exact Or.inr rfl
    · exact Or.inl rfl

/-- A finish leaves a job under its id and its key. -/
theorem finishJob_keys (now : Instant) (jobId : String) (result : JobResult) (db : Db) :
    ∀ row ∈ (transact db (finishJob now jobId result db)).1.jobs,
      ∃ before ∈ db.jobs, before.jobId = row.jobId ∧ before.dedupeKey = row.dedupeKey := by
  intro row hrow
  have houtcome := finishJob_outcome now jobId result db
  generalize transact db (finishJob now jobId result db) = reply at hrow houtcome
  cases houtcome with
  | threw | settled => exact ⟨row, hrow, rfl, rfl⟩
  | finished lookup live finished settlement_eq =>
    rw [finished.jobs] at hrow
    obtain ⟨before, hbefore, rfl⟩ := Table.mem_update.mp hrow
    refine ⟨before, hbefore, ?_⟩
    split <;> simp

/-- A finish of a job that was delivered tells the run nothing, or the result of one source. -/
theorem finishJob_run (hinv : w.Inv request) {run : SyncJobRow} (source : SourceName)
    (now : Instant) (result : JobResult) (hrun : syncRow request.runId w.db = some run)
    (hhas : HasResults request.enabled run) {db' : Db}
    (hdb : db' = (transact w.db (finishJob now (request.jobIds source) result w.db)).1) :
    syncRow request.runId db' = some run ∨
    ∃ row reporter after, reportingRow (request.jobIds source) result w.db = some row ∧
      request.enabled reporter = true ∧
      collectRun row = some (reporter.name, request.runId.text) ∧
      (recordedResult result).isSome ∧ syncRow request.runId db' = some after ∧
      HasResults request.enabled after ∧
      after.Settled ((enabledSources request.enabled).map SourceName.name) ∧
      ∀ k, after.stats.lookup k = if k = reporter.name then recordedResult result
        else run.stats.lookup k := by
  have hsync := finishJob_syncJobs now (request.jobIds source) result w.db
  rw [← hdb] at hsync
  have hsame (h : db'.syncJobs = w.db.syncJobs) : syncRow request.runId db' = some run := by
    rw [syncRow, h]
    exact hrun
  cases hrow : reportingRow (request.jobIds source) result w.db with
  | none =>
    rw [hrow] at hsync
    exact Or.inl (hsame hsync)
  | some row =>
    cases hreport : reportAt now result with
    | none =>
      rw [hrow, hreport] at hsync
      exact Or.inl (hsame hsync)
    | some report =>
      rw [hrow, hreport] at hsync
      have hlookup := (Option.filter_eq_some_iff.mp hrow).1
      -- a job under a source's id has the key of a source of this run
      obtain ⟨reporter, henabled, hkey⟩ := hinv.jobs row (Table.lookup_mem hlookup) source
        (Table.lookup_key hlookup)
      by_cases hkind : row.kind = .collectSource
      · have hcollect : collectRun row = some (reporter.name, request.runId.text) := by
          rw [collectRun, if_pos hkind, hkey, parseCollectKey_collectKey]
        obtain ⟨after, hafter, hhas', hsettled, hstats⟩ :=
          hhas.reported hrun hcollect henabled hreport hsync
        refine Or.inr ⟨row, reporter, after, rfl, henabled, hcollect, ?_, hafter, hhas', hsettled,
          hstats⟩
        rw [recordedResult_eq hreport ""]
        rfl
      -- another kind of job reports to no run
      · have hcollect : collectRun row = none := if_neg hkind
        have hquiet : updateSyncJobCompletion row report w.db.syncJobs = w.db.syncJobs := by
          simp only [updateSyncJobCompletion, hcollect]
        exact Or.inl (hsame (hsync.trans hquiet))

/-- A finish in time: the run still shows its results, and stays ended. -/
theorem SyncRun.Inv.finish (hinv : w.Inv request) {run : SyncJobRow} {source : SourceName}
    {now : Instant} {result : JobResult} (htime : w.InTime request (.finish source now result))
    (hdelivered : w.delivered source = true) (hrun : syncRow request.runId w.db = some run)
    (hshows : w.Shows request run) {db' : Db}
    (hdb : db' = (transact w.db (finishJob now (request.jobIds source) result w.db)).1) :
    ∃ after, syncRow request.runId db' = some after ∧ w.Shows request after ∧
      (run.finishedAt.isSome → after.finishedAt.isSome) := by
  obtain ⟨hhas, hphase⟩ := hshows
  rcases finishJob_run hinv source now result hrun hhas hdb with
    hsame | ⟨row, reporter, after, hrow, henabled, hcollect, hresult, hafter, hhas', hsettled, hstats⟩
  · exact ⟨run, hsame, ⟨hhas, hphase⟩, id⟩
  · refine ⟨after, hafter, ⟨hhas', ?_⟩, fun hfinished => ?_⟩
    · split
      · next hreported =>
        obtain ⟨hothers, hfailed⟩ := htime hreported hdelivered row hrow run hrun reporter
          (mem_enabledSources.mpr henabled) hcollect
        obtain ⟨hfinished, hstatus⟩ :=
          hhas'.ended hsettled (terminal_of_reported hresult hstats hothers)
        refine ⟨hfinished, hstatus.trans (if_pos (List.any_eq_true.mpr ?_))⟩
        rcases hfailed with hfailed | ⟨other, hother, hne, hfailed⟩
        · refine ⟨reporter, mem_enabledSources.mpr henabled, ?_⟩
          rw [hstats, if_pos rfl, hasStatus_failed_recordedResult hresult, hfailed]
        · refine ⟨other, hother, ?_⟩
          rw [hstats, if_neg fun h => hne (SourceName.name_injective h), hfailed]
      · exact hsettled
    · by_cases hreported : w.phase = .reported
      · obtain ⟨hothers, -⟩ := htime hreported hdelivered row hrow run hrun reporter
          (mem_enabledSources.mpr henabled) hcollect
        exact (hhas'.ended hsettled (terminal_of_reported hresult hstats hothers)).1
      · rw [if_neg hreported] at hphase
        refine (hhas'.ended hsettled (terminal_of_reported hresult hstats ?_)).1
        exact fun other hother _ =>
          Settled.allResults hphase hfinished _ (List.mem_map_of_mem hother)

/-- A claim changes no run. -/
theorem claimJob_syncJobs (env : Env) (now : Instant) (iv : Bytes) (input : Json) (db : Db) :
    (transact db (claimJob env now iv input db)).1.syncJobs = db.syncJobs := by
  have houtcome := claimJob_outcome env now iv input db
  generalize transact db (claimJob env now iv input db) = reply at houtcome ⊢
  cases houtcome with
  | refused | created | reclaimed => rfl

/-- A job id that a claim binds is the one of the claimed job, as is the key of its row. -/
theorem claimJob_keys {env : Env} {now : Instant} {iv : Bytes} {input : Json} {db : Db}
    {row : JobRow} (hrow : row ∈ (transact db (claimJob env now iv input db)).1.jobs) :
    row ∈ db.jobs ∨
      ∃ job, parseQueueJob env.zod input = some job ∧ row.dedupeKey = job.dedupeKey := by
  have houtcome := claimJob_outcome env now iv input db
  generalize transact db (claimJob env now iv input db) = reply at hrow houtcome
  cases houtcome with
  | refused => exact Or.inl hrow
  | @created job jobs envelopes parse insert sealed =>
    rcases (Table.mem_insert? insert).mp hrow with hold | rfl
    · exact Or.inl hold
    · exact Or.inr ⟨job, parse, rfl⟩
  | @reclaimed job before jobs parse lookup claimable update =>
    obtain ⟨old, hold, rfl⟩ := (Table.mem_update? update).mp hrow
    split
    · next hkey => exact Or.inr ⟨job, parse, of_decide_eq_true hkey⟩
    · exact Or.inl hold

theorem SyncRun.Inv.start {db : Db}
    (hfresh : ∀ row ∈ db.jobs, ∀ source, row.jobId ≠ request.jobIds source) :
    (SyncRun.start db).Inv request where
  jobs row hrow source hid := absurd hid (hfresh row hrow source)
  delivered source h := by cases h
  run h := absurd rfl h

/-- The insert makes the row of the run, unless there is one. -/
theorem SyncRun.Inv.insert (hinv : w.Inv request) (hready : w.phase = .ready) :
    (w.insert request).Inv request ∧
      (RunEnded request.runId w.db → RunEnded request.runId (w.insert request).db) := by
  have hquiet : ∀ source, w.delivered source = true → False :=
    fun source h => (hinv.delivered source h).2.1 hready
  unfold SyncRun.insert
  split
  · exact ⟨⟨hinv.jobs, fun source h => absurd h (hquiet source), fun _ h => absurd rfl h⟩, id⟩
  · next syncJobs hinsert =>
    have hlookup := Table.lookup_insert? SyncJobRow.isKey_id hinsert
    refine ⟨⟨hinv.jobs, fun source h => absurd h (hquiet source), fun _ _ => ?_⟩, ?_⟩
    · refine ⟨_, (hlookup request.runId.text).trans (if_pos rfl), .requested request.createdAt, ?_⟩
      exact settled_requested request.createdAt
    · rintro ⟨run, hrun, -⟩
      have hnone : syncRow request.runId w.db = none :=
        Table.lookup_eq_none.mpr fun row hrow hid => by
          have hnew := (Table.insert?_eq_some hinsert).2 row hrow
          rw [SyncJobRow.isKey_id _ _ hid] at hnew
          cases hnew
      rw [hnone] at hrun
      cases hrun

/-- A delivered job is one of an enabled source, and the row of the run is there. -/
theorem SyncRun.Inv.deliver (hinv : w.Inv request) {source : SourceName}
    (hphase : w.phase = .sending) (henabled : request.enabled source = true) :
    SyncRun.Inv request { w with delivered := Function.update w.delivered source true } where
  jobs := hinv.jobs
  delivered other hother := by
    by_cases hsame : other = source
    · rw [hsame]
      exact ⟨henabled, by simp [hphase], by simp [hphase]⟩
    · refine hinv.delivered other ?_
      simpa [Function.update_of_ne hsame] using hother
  run := hinv.run

/-- The end of the send leaves the row. -/
theorem SyncRun.Inv.sendEnds (hinv : w.Inv request) (hphase : w.phase = .sending)
    (succeeds : Bool) :
    SyncRun.Inv request { w with phase := if succeeds then .sent else .throwing } := by
  obtain ⟨run, hrun, hhas, hshows⟩ := hinv.run (by simp [hphase]) (by simp [hphase])
  rw [if_neg (by simp [hphase])] at hshows
  refine ⟨hinv.jobs, fun source h => ⟨(hinv.delivered source h).1, ?_⟩, fun _ _ =>
    ⟨run, hrun, hhas, ?_⟩⟩
  · cases succeeds <;> simp
  · rw [if_neg (by cases succeeds <;> simp)]
    exact hshows

/-- A failure that is recorded ends the run as failed. -/
theorem SyncRun.Inv.recordFailure (hinv : w.Inv request) (hphase : w.phase = .throwing)
    {message : String} {now : Instant} {w' : SyncRun}
    (hw' : w' = { w with
      db.syncJobs := w.db.syncJobs.update (fun row => row.id = request.runId.text)
        (SyncJobRow.setPublishFailed message now)
      phase := .reported }) :
    w'.Inv request ∧ RunEnded request.runId w'.db := by
  subst hw'
  obtain ⟨run, hrun, hhas, -⟩ := hinv.run (by simp [hphase]) (by simp [hphase])
  have hrun' : syncRow request.runId
      { w.db with
        syncJobs := w.db.syncJobs.update (fun row => row.id = request.runId.text)
          (SyncJobRow.setPublishFailed message now) } =
      some (run.setPublishFailed message now) := by
    have hkeeps : ∀ r : SyncJobRow, (r.setPublishFailed message now).id = r.id := fun _ => rfl
    rw [syncRow, Table.lookup_update_key hkeeps, if_pos rfl,
      show w.db.syncJobs.lookup SyncJobRow.id request.runId.text = some run from hrun]
    rfl
  refine ⟨⟨hinv.jobs, fun source h => ⟨(hinv.delivered source h).1, by simp, by simp⟩, fun _ _ =>
    ⟨_, hrun', ⟨hhas.queued, hhas.recorded⟩, ?_⟩⟩, ⟨_, hrun', rfl, Or.inr rfl⟩⟩
  exact ⟨rfl, rfl⟩

/-- The claim of a delivered job leaves the row of the run alone. -/
theorem SyncRun.Inv.claim (hinv : w.Inv request) {source : SourceName}
    (hdelivered : w.delivered source = true) (now : Instant) (iv : Bytes) {w' : SyncRun}
    (hw' : w' = { w with
      db := (transact w.db (claimJob env now iv (request.job source).toJson w.db)).1 }) :
    w'.Inv request ∧ (RunEnded request.runId w.db → RunEnded request.runId w'.db) := by
  subst hw'
  have hsync : ∀ db', db'.syncJobs = w.db.syncJobs →
      syncRow request.runId db' = syncRow request.runId w.db := by
    intro db' h
    rw [syncRow, h]
    rfl
  have hsame := hsync _ (claimJob_syncJobs env now iv (request.job source).toJson w.db)
  refine ⟨⟨fun row hrow other hid => ?_, hinv.delivered, fun h h' => ?_⟩, fun hended => ?_⟩
  · rcases claimJob_keys hrow with hold | ⟨job, hparse, hkey⟩
    · exact hinv.jobs row hold other hid
    · rw [parseQueueJob_collectionJob hparse] at hkey
      exact ⟨source, (hinv.delivered source hdelivered).1, hkey⟩
  · rw [hsame]
    exact hinv.run h h'
  · unfold RunEnded
    rw [hsame]
    exact hended

/-- The finish of a delivered job, in time. -/
theorem SyncRun.Inv.finishes (hinv : w.Inv request) {source : SourceName} {now : Instant}
    {result : JobResult} (htime : w.InTime request (.finish source now result))
    (hdelivered : w.delivered source = true) {w' : SyncRun}
    (hw' : w' = { w with
      db := (transact w.db (finishJob now (request.jobIds source) result w.db)).1 }) :
    w'.Inv request ∧ (RunEnded request.runId w.db → RunEnded request.runId w'.db) := by
  subst hw'
  obtain ⟨-, hready, hrefused⟩ := hinv.delivered source hdelivered
  obtain ⟨run, hrun, hshows⟩ := hinv.run hready hrefused
  obtain ⟨after, hafter, hshows', hfinished⟩ := hinv.finish htime hdelivered hrun hshows rfl
  refine ⟨⟨fun row hrow other hid => ?_, hinv.delivered, fun _ _ => ⟨after, hafter, hshows'⟩⟩, ?_⟩
  · obtain ⟨before, hbefore, hid', hkey⟩ := finishJob_keys _ _ _ _ row hrow
    rw [← hkey]
    exact hinv.jobs before hbefore other (hid'.trans hid)
  · rintro ⟨run', hrun', hended, -⟩
    cases hrun.symm.trans hrun'
    exact ⟨after, hafter, hfinished hended, hshows'.ended (hfinished hended)⟩

/-- One step, in time: it keeps what holds, and leaves a run that has ended as ended. -/
theorem SyncRun.Inv.step (env : Env) (hinv : w.Inv request) {a : SyncStep}
    (htime : w.InTime request a) :
    (w.step env request a).Inv request ∧
      (RunEnded request.runId w.db → RunEnded request.runId (w.step env request a).db) := by
  cases a with
  | insert =>
    simp only [SyncRun.step]
    split
    · next hready => exact hinv.insert hready
    · exact ⟨hinv, id⟩
  | deliver source =>
    simp only [SyncRun.step]
    split
    · next hsending => exact ⟨hinv.deliver hsending.1 hsending.2, id⟩
    · exact ⟨hinv, id⟩
  | sendEnds succeeds =>
    simp only [SyncRun.step]
    split
    · next hphase => exact ⟨hinv.sendEnds hphase succeeds, id⟩
    · exact ⟨hinv, id⟩
  | recordFailure message now =>
    simp only [SyncRun.step]
    split
    · next hphase =>
      obtain ⟨hinv', hended⟩ := hinv.recordFailure hphase rfl
      exact ⟨hinv', fun _ => hended⟩
    · exact ⟨hinv, id⟩
  | claim source now iv =>
    simp only [SyncRun.step]
    split
    · next hdelivered => exact hinv.claim hdelivered now iv rfl
    · exact ⟨hinv, id⟩
  | finish source now result =>
    simp only [SyncRun.step]
    split
    · next hdelivered => exact hinv.finishes htime hdelivered rfl
    · exact ⟨hinv, id⟩

end Inv

/-! ## Over a run -/

/--
**A run that has ended stays so, and a run whose publication has failed is failed**, as long as
every report comes before the failure is recorded, or is the last of a run with a failed source:
whatever part of the jobs was delivered, in any interleaving of the request with the jobs.
-/
theorem ended_run_stays (env : Env) (request : SyncRequest) (db : Db) (steps : List SyncStep)
    (hfresh : ∀ row ∈ db.jobs, ∀ source, row.jobId ≠ request.jobIds source)
    (htime : (syncMachine env request).Admits (SyncRun.InTime request) (.start db) steps) :
    (∀ pre post, steps = pre ++ post →
      RunEnded request.runId ((syncMachine env request).run (.start db) pre).db →
      RunEnded request.runId ((syncMachine env request).run (.start db) steps).db) ∧
    (((syncMachine env request).run (.start db) steps).phase = .reported →
      ∃ run, syncRow request.runId ((syncMachine env request).run (.start db) steps).db = some run ∧
        run.status = .failed) := by
  have hrun : ∀ as, (syncMachine env request).Admits (SyncRun.InTime request) (.start db) as →
      ((syncMachine env request).run (.start db) as).Inv request := fun as has =>
    Machine.run_invariant (fun w a hinv ha => (hinv.step env ha).1) (.start hfresh) has
  refine ⟨fun pre post hsteps hended => ?_, fun hreported => ?_⟩
  · subst hsteps
    obtain ⟨hpre, hpost⟩ := Machine.admits_append.mp htime
    rw [Machine.run_append]
    have hboth : SyncRun.Inv request _ ∧ RunEnded request.runId _ :=
      Machine.run_invariant (M := syncMachine env request) (G := SyncRun.InTime request)
        (I := fun w => w.Inv request ∧ RunEnded request.runId w.db)
        (fun w a hw ha => ⟨(hw.1.step env ha).1, (hw.1.step env ha).2 hw.2⟩) ⟨hrun pre hpre, hended⟩
        hpost
    exact hboth.2
  · obtain ⟨run, hlookup, -, hshows⟩ := (hrun steps htime).run (by rw [hreported]; simp)
      (by rw [hreported]; simp)
    rw [if_pos hreported] at hshows
    exact ⟨run, hlookup, hshows.2⟩

/-! ## A publication that fails half way -/

namespace HalfPublished

/-- A run of two sources. -/
def request : SyncRequest where
  runId := TwoSources.runId
  createdAt := 0
  createdText := Sample.createdAt
  enabled := TwoSources.enabled
  jobIds source := if source = .zhihu then Sample.firstId else Sample.secondId
  shadow := false
  triggeredBy := .manual

/-- Both jobs are delivered, and one of them fails before the failure is recorded. -/
def inTurn : List SyncStep :=
  [.insert, .deliver .zhihu, .deliver .bilibili, .sendEnds false, .claim .zhihu 1000 Sample.iv,
    .finish .zhihu 2000 (.failed none none (some Sample.jobDigest)), .recordFailure "timeout" 3000,
    .claim .bilibili 4000 Sample.iv, .finish .bilibili 5000 (.done none)]

/-- One of the two jobs is delivered, and it is done after the failure is recorded. -/
def late : List SyncStep :=
  [.insert, .deliver .zhihu, .sendEnds false, .recordFailure "timeout" 1000,
    .claim .zhihu 2000 Sample.iv, .finish .zhihu 3000 (.done none)]

def machine : Machine SyncRun SyncStep Unit := syncMachine Sample.env request

/-- The row of the run after the steps. -/
def shown (steps : List SyncStep) : Option SyncJobRow :=
  syncRow request.runId (machine.run (.start Db.empty) steps).db

theorem ended_run_stays_inTurn :
    (machine.run (.start Db.empty) inTurn).phase = .reported ∧
      ∃ run, shown inTurn = some run ∧ run.status = .failed := by
  have hphase : (machine.run (.start Db.empty) inTurn).phase = .reported := by decide +kernel
  refine ⟨hphase, ?_⟩
  exact (ended_run_stays Sample.env request Db.empty inTurn
    (fun row hrow => absurd hrow Table.not_mem_empty) (by decide +kernel)).2 hphase

/-- A job that reports after the failure sets the run to running again. -/
theorem reopened_run :
    RunEnded request.runId (machine.run (.start Db.empty) (late.take 4)).db ∧
      (machine.run (.start Db.empty) late).phase = .reported ∧
      (shown late).map SyncJobRow.status = some .running ∧
      ¬ RunEnded request.runId (machine.run (.start Db.empty) late).db := by
  have hbefore : ((shown (late.take 4)).map fun run => (run.finishedAt, run.status)) =
      some (some 1000, .failed) := by decide +kernel
  have hafter : (machine.run (.start Db.empty) late).phase = .reported ∧
      ((shown late).map fun run => (run.finishedAt, run.status)) = some (none, .running) := by
    decide +kernel
  obtain ⟨run, hrun, hended⟩ := Option.map_eq_some_iff.mp hbefore
  obtain ⟨hfinished, hstatus⟩ := Prod.mk.inj hended
  obtain ⟨hphase, hopen⟩ := hafter
  obtain ⟨after, hrun', hopened⟩ := Option.map_eq_some_iff.mp hopen
  obtain ⟨hfinished', hstatus'⟩ := Prod.mk.inj hopened
  refine ⟨⟨run, hrun, by rw [hfinished]; rfl, Or.inr hstatus⟩, hphase, ?_, ?_⟩
  · rw [hrun', Option.map_some, hstatus']
  · rintro ⟨again, hagain, hfinished, -⟩
    cases hrun'.symm.trans hagain
    rw [hfinished'] at hfinished
    cases hfinished

end HalfPublished

end InboxServer.Postgres
