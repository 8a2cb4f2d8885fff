import InboxServer.Properties.FinishRaces

/-!
# Sources of a sync run that finish together on D1

The collection jobs of one run finish, each by its own call of `finishJob`, statement by statement.
A call reads the results of the run and writes all of them back, with its own.

* `all_sources_recorded` — as long as each report is written to the run as it was read, the run ends
  with every result
* `lost_result` — two reports that overlap: one is lost, and the run stays open
-/

namespace InboxServer.D1

open Infra

/-! ## Runs -/

/-- The sources of a run, in their order. -/
def enabledSources (enabled : SourceName → Bool) : List SourceName := sourceNames.filter enabled

theorem mem_enabledSources {enabled : SourceName → Bool} {source : SourceName} :
    source ∈ enabledSources enabled ↔ enabled source = true := by
  have hmem : source ∈ sourceNames := by cases source <;> decide
  simp [enabledSources, hmem]

/-- The row of a sync run. -/
def syncRow (runId : RunId) (db : Db) : Option SyncJobRow := db.syncJobs.lookup SyncJobRow.id runId.text

/-- A run that was requested, with its collection jobs claimed, each under its job id. -/
structure RunRequested (runId : RunId) (createdAt : Instant) (enabled : SourceName → Bool)
    (jobIds : SourceName → String) (db : Db) : Prop where
  run : syncRow runId db = some (SyncJobRow.requested runId createdAt (enabledSources enabled))
  jobs : ∀ source, enabled source = true → ∃ row, jobRow (jobIds source) db = some row ∧
    row.kind = .collectSource ∧ row.dedupeKey = collectKey source runId ∧
    row.status.isTerminal = false

/-- The calls that finish the jobs of the enabled sources. -/
def sourceCalls (enabled : SourceName → Bool) (jobIds : SourceName → String)
    (results : SourceName → JobResult) (source : SourceName) : Option (String × JobResult) :=
  if enabled source then some (jobIds source, results source) else none

/-- The run has the result of every source, and has ended. -/
def AllRecorded (runId : RunId) (enabled : SourceName → Bool) (results : SourceName → JobResult)
    (db : Db) : Prop :=
  ∃ row, syncRow runId db = some row ∧
    (∀ source, enabled source = true → row.stats.lookup source.name = recordedResult (results source)) ∧
    row.finishedAt.isSome ∧
    row.status = if (enabledSources enabled).any fun source => (results source).hasFailed
      then .failed else .done

/-- The next step of a call is no batch over a run that has changed since the call has read it. -/
def FinishRace.Reread (runId : RunId) (w : FinishRace SourceName) (s : SourceName × Instant) : Prop :=
  match w.pool.procs s.1 with
  | some (.call (.batch _) _) => (w.notes s.1).1.sync = syncRow runId w.pool.shared
  | some (.call ..) | some (.ret _) | none => True

instance (runId : RunId) (w : FinishRace SourceName) (s : SourceName × Instant) :
    Decidable (w.Reread runId s) := by
  unfold FinishRace.Reread
  split <;> infer_instance

/-! ## What holds in between -/

section Inv

variable {runId : RunId} {createdAt : Instant} {enabled : SourceName → Bool}
  {jobIds : SourceName → String} {results : SourceName → JobResult} {db db' : Db}

/-- The run is there, with its sources; a run without sources has ended. -/
def RunInv (runId : RunId) (enabled : SourceName → Bool) (db : Db) : Prop :=
  ∃ row, syncRow runId db = some row ∧
    queuedNames row.stats = (enabledSources enabled).map SourceName.name ∧
    (enabledSources enabled = [] → row.finishedAt.isSome ∧ row.status = .done)

/-- The result of a source is in the run, and the run shows what its results say. -/
def SourceRecorded (runId : RunId) (enabled : SourceName → Bool) (results : SourceName → JobResult)
    (source : SourceName) (db : Db) : Prop :=
  ∃ row, syncRow runId db = some row ∧
    row.stats.lookup source.name = recordedResult (results source) ∧
    row.Settled ((enabledSources enabled).map SourceName.name)

/-- What the call of a source knows. -/
structure SourceKnows (runId : RunId) (enabled : SourceName → Bool) (jobIds : SourceName → String)
    (results : SourceName → JobResult) (source : SourceName) (db : Db) (note : FinishNote) :
    Prop where
  job : ∃ row, jobRow (jobIds source) db = some row ∧
    collectRun row = some (source.name, runId.text) ∧
    (note.1.wrote = none → row.status.isTerminal = false)
  read : ∀ row, note.1.job = some row → collectRun row = some (source.name, runId.text) ∧
    row.status.isTerminal = false
  recorded : ∀ writes, note.1.wrote = some writes →
    FinishWrites (jobIds source) note.1 (results source) false writes →
    SourceRecorded runId enabled results source db

theorem name_ne_queued (source : SourceName) : source.name ≠ "queued" := by
  cases source <;> decide

theorem queuedNames_set {stats : Fields} (source : SourceName) (value : Json) :
    queuedNames (stats.set source.name value) = queuedNames stats := by
  unfold queuedNames
  rw [Entries.lookup_set, if_neg (name_ne_queued source).symm]

/-- A report that is made from the run as it is. -/
theorem reported_current {row : JobRow} {source : SourceName} {syncJob : SyncJobRow}
    {report : SyncJobUpdate} {timestamp : Instant}
    (hcollect : collectRun row = some (source.name, runId.text))
    (hsync : syncRow runId db = some syncJob)
    (hqueued : queuedNames syncJob.stats = (enabledSources enabled).map SourceName.name)
    (henabled : enabled source = true) (hreport : reportAt timestamp (results source) = some report)
    (hdb : db'.syncJobs = reported row (some syncJob) report db.syncJobs) :
    ∃ after, syncRow runId db' = some after ∧
      (∀ k, after.stats.lookup k = if k = source.name then recordedResult (results source)
        else syncJob.stats.lookup k) ∧
      queuedNames after.stats = (enabledSources enabled).map SourceName.name ∧
      after.Settled ((enabledSources enabled).map SourceName.name) := by
  have hmem : source.name ∈ queuedNames syncJob.stats := by
    rw [hqueued]
    exact List.mem_map_of_mem (mem_enabledSources.mpr henabled)
  obtain ⟨update, hupdate⟩ : ∃ update : SyncJobUpdate, update = { report with source := source.name } :=
    ⟨_, rfl⟩
  have hsource : update.source = source.name := by rw [hupdate]
  have hadvance : advanceSyncJob syncJob.stats update = settledProgress (queuedNames syncJob.stats)
      update.finishedAt (syncJob.stats.set update.source (sourceResult update)) :=
    advanceSyncJob_eq (by rw [hsource]; exact hmem)
  have hresult : recordedResult (results source) = some (sourceResult update) := by
    rw [hupdate]
    exact recordedResult_eq hreport source.name
  rw [hqueued, hsource] at hadvance
  have hreported : reported row (some syncJob) report db.syncJobs =
      db.syncJobs.update (fun r => r.id = runId.text)
        (SyncJobRow.setProgress (advanceSyncJob syncJob.stats update)) := by
    simp only [reported, hcollect, hupdate]
  have hafter : syncRow runId db' =
      some (syncJob.setProgress (advanceSyncJob syncJob.stats update)) := by
    have hkeeps : ∀ r : SyncJobRow,
        (r.setProgress (advanceSyncJob syncJob.stats update)).id = r.id := fun _ => rfl
    rw [syncRow, hdb, hreported, Table.lookup_update_key hkeeps, if_pos rfl,
      show db.syncJobs.lookup SyncJobRow.id runId.text = some syncJob from hsync]
    rfl
  have hstats : (syncJob.setProgress (advanceSyncJob syncJob.stats update)).stats =
      syncJob.stats.set source.name (sourceResult update) := by
    show (advanceSyncJob syncJob.stats update).stats = _
    rw [hadvance, settledProgress_stats]
  refine ⟨_, hafter, fun k => ?_, ?_, update.finishedAt, ?_⟩
  · rw [hstats, Entries.lookup_set, hresult]
  · rw [hstats, queuedNames_set, hqueued]
  · rw [SyncJobRow.setProgress_progress, hstats, hadvance]

/-- **A call of a source records its result**, where the run is the one that it has read. -/
theorem SourceKnows.write {source : SourceName} {note : FinishNote} {retries : Bool}
    (h : SourceKnows runId enabled jobIds results source db note)
    (hrun : RunInv runId enabled db) (henabled : enabled source = true)
    (hreports : (recordedResult (results source)).isSome) {row : JobRow}
    (hjob : note.1.job = some row) (hsync : note.1.sync = syncRow runId db)
    (hfinishes : Finishes (jobIds source) note.1 (results source) retries db db') :
    RunInv runId enabled db' ∧
      (∀ other, other ≠ source → SourceRecorded runId enabled results other db →
        SourceRecorded runId enabled results other db') ∧
      (retries = false → SourceRecorded runId enabled results source db') := by
  obtain ⟨syncJob, hrow, hqueued, hnone⟩ := hrun
  cases retries with
  | true =>
    have hsame : syncRow runId db' = syncRow runId db := by
      rw [syncRow, hfinishes.quiet rfl]
      rfl
    refine ⟨⟨syncJob, hsame.trans hrow, hqueued, hnone⟩, fun other _ hother => ?_, fun hfalse => by
      cases hfalse⟩
    obtain ⟨row', hrow', hrecorded⟩ := hother
    exact ⟨row', hsame.trans hrow', hrecorded⟩
  | false =>
    have hreportable : (reportAt 0 (results source)).isSome := by
      unfold recordedResult at hreports
      rwa [Option.isSome_map] at hreports
    obtain ⟨timestamp, report, hreport, hdb⟩ := hfinishes.reports rfl hreportable row hjob
    rw [hsync, hrow] at hdb
    obtain ⟨after, hafter, hstats, hqueued', hsettled⟩ := reported_current
      (h.read row hjob).1 hrow hqueued henabled hreport hdb
    refine ⟨⟨after, hafter, hqueued', fun hempty => ?_⟩, fun other hne hother => ?_, fun _ => ?_⟩
    · have hmem := mem_enabledSources.mpr henabled
      rw [hempty] at hmem
      cases hmem
    · obtain ⟨row', hrow', hlookup, -⟩ := hother
      cases hrow.symm.trans hrow'
      refine ⟨after, hafter, ?_, hsettled⟩
      rw [hstats, if_neg fun h => hne (SourceName.name_injective h), hlookup]
    · exact ⟨after, hafter, by rw [hstats, if_pos rfl], hsettled⟩

end Inv

section Outline

variable {runId : RunId} {enabled : SourceName → Bool} {jobIds : SourceName → String}
  {results : SourceName → JobResult}

/-- The jobs of two sources of a run are different rows. -/
theorem jobIds_ne {source other : SourceName} {db : Db} {note note' : FinishNote}
    (h : SourceKnows runId enabled jobIds results source db note)
    (h' : SourceKnows runId enabled jobIds results other db note') (hne : other ≠ source) :
    jobIds other ≠ jobIds source := by
  intro heq
  obtain ⟨row, hrow, hcollect, -⟩ := h.job
  obtain ⟨row', hrow', hcollect', -⟩ := h'.job
  rw [heq, hrow] at hrow'
  cases hrow'
  rw [hcollect] at hcollect'
  simp only [Option.some.injEq, Prod.mk.injEq] at hcollect'
  exact hne (SourceName.name_injective hcollect'.1.symm)

theorem sourceCalls_eq_some {source : SourceName} {call : String × JobResult}
    (h : sourceCalls enabled jobIds results source = some call) :
    enabled source = true ∧ call = (jobIds source, results source) := by
  unfold sourceCalls at h
  split at h
  · next henabled => exact ⟨henabled, (Option.some.inj h).symm⟩
  · cases h

/-- What the call of a source knows after a read. -/
theorem SourceKnows.afterRead {source : SourceName} {db : Db} {note : FinishNote} {now : Instant}
    (h : SourceKnows runId enabled jobIds results source db note) {c : Step}
    (hread : ∀ writes, c ≠ .batch writes)
    (hpermits : FinishPermits (jobIds source) (results source) note.1 c) :
    SourceKnows runId enabled jobIds results source db
      (finishNote note db c (serve now db c).2 db) := by
  cases c with
  | batch writes => exact absurd rfl (hread writes)
  | selectJobById id =>
    obtain ⟨rfl, hwrote⟩ := hpermits
    obtain ⟨row, hrow, hcollect, hlive⟩ := h.job
    refine ⟨⟨row, hrow, hcollect, hlive⟩, fun row' hrow' => ?_, fun writes hwritten => ?_⟩
    · cases hrow.symm.trans hrow'
      exact ⟨hcollect, hlive hwrote⟩
    · exact absurd (hwritten.symm.trans hwrote) (by simp)
  | selectSyncJob id =>
    refine ⟨h.job, h.read, fun writes hwritten => ?_⟩
    exact absurd (hwritten.symm.trans hpermits) (by simp)
  | now | selectJob | selectEnvelope | selectEffect => exact ⟨h.job, h.read, h.recorded⟩

/-- What the call of a source knows after its batch. -/
theorem SourceKnows.afterBatch {source : SourceName} {db db' : Db} {note : FinishNote}
    (h : SourceKnows runId enabled jobIds results source db note) (hrun : RunInv runId enabled db)
    (henabled : enabled source = true) (hreports : (recordedResult (results source)).isSome)
    {row : JobRow} (hjob : note.1.job = some row) (hsync : note.1.sync = syncRow runId db)
    {writes : List Write} (happly : writes.foldlM Write.apply db = some db')
    {retries : Bool} (hfinishes : Finishes (jobIds source) note.1 (results source) retries db db') :
    SourceKnows runId enabled jobIds results source db'
      (finishNote note db (.batch writes) true db') := by
  refine ⟨?_, h.read, fun writes' hwrote hwrites => ?_⟩
  · obtain ⟨row, hrow, hcollect, -⟩ := h.job
    obtain ⟨f, hf, hjobs⟩ := hfinishes.jobs
    refine ⟨f row, ?_, (hf row).2.trans hcollect, fun hnone => by cases hnone⟩
    rw [hjobs, hrow, Option.map_some, if_pos rfl]
  · obtain rfl : writes = writes' := Option.some.inj hwrote
    have hwrites' : FinishWrites (jobIds source) note.1 (results source) false writes :=
      hwrites.of_wrote note.1.wrote
    obtain ⟨db'', happly', hfinishes'⟩ := hwrites'.apply db
    rw [happly] at happly'
    cases happly'
    exact (h.write hrun henabled hreports hjob hsync hfinishes').2.2 rfl

/-- What holds in every run in which each report is written to the run as it was read. -/
def sourceOutline (runId : RunId) (enabled : SourceName → Bool) (jobIds : SourceName → String)
    (results : SourceName → JobResult)
    (hreports : ∀ source, enabled source = true → (recordedResult (results source)).isSome) :
    ProofOutline (ι := SourceName) (α := Except ErrorText Settlement) serve finishNote where
  admits := FinishRace.Reread runId
  shared := RunInv runId enabled
  at_ source db note p :=
    FinishesAt (sourceCalls enabled jobIds results) source note p ∧
      (enabled source = true → SourceKnows runId enabled jobIds results source db note)
  own w i now c k hcall hadmits hrun hstage := by
    have hnext := finishesAt_step hstage.1 w.pool.shared (serve now w.pool.shared c).1
      (serve now w.pool.shared c).2
    obtain ⟨id, result, hcalls, hpermits, -⟩ := hstage.1
    obtain ⟨henabled, hmine⟩ := sourceCalls_eq_some hcalls
    cases hmine
    have hknows := hstage.2 henabled
    -- only the batch writes, over the run as the call has read it
    by_cases hbatch : ∃ writes, c = .batch writes
    · obtain ⟨writes, rfl⟩ := hbatch
      obtain ⟨⟨row, hjob, -⟩, -, retries, hwrites⟩ := hpermits
      obtain ⟨db', happly, hfinishes⟩ := hwrites.apply w.pool.shared
      have hserve : serve now w.pool.shared (.batch writes) = (db', true) := by
        simp only [serve, happly]
      have hsync : (w.notes i).1.sync = syncRow runId w.pool.shared := by
        simp only [FinishRace.Reread, hcall] at hadmits
        exact hadmits
      rw [hserve] at hnext ⊢
      refine ⟨(hknows.write hrun henabled (hreports i henabled) hjob hsync hfinishes).1, hnext,
        fun _ => ?_⟩
      exact hknows.afterBatch hrun henabled (hreports i henabled) hjob hsync happly hfinishes
    · push Not at hbatch
      rw [serve_read hbatch] at hnext ⊢
      exact ⟨hrun, hnext, fun _ => hknows.afterRead hbatch hpermits⟩
  others w i now c k j p hcall _ hadmits hrun hstage hne hother := by
    refine ⟨hother.1, fun henabled' => ?_⟩
    have hknows' := hother.2 henabled'
    obtain ⟨id, result, hcalls, hpermits, -⟩ := hstage.1
    obtain ⟨henabled, hmine⟩ := sourceCalls_eq_some hcalls
    cases hmine
    have hknows := hstage.2 henabled
    by_cases hbatch : ∃ writes, c = .batch writes
    · obtain ⟨writes, rfl⟩ := hbatch
      obtain ⟨⟨row, hjob, -⟩, -, retries, hwrites⟩ := hpermits
      obtain ⟨db', happly, hfinishes⟩ := hwrites.apply w.pool.shared
      have hserve : serve now w.pool.shared (.batch writes) = (db', true) := by
        simp only [serve, happly]
      have hsync : (w.notes i).1.sync = syncRow runId w.pool.shared := by
        simp only [FinishRace.Reread, hcall] at hadmits
        exact hadmits
      rw [hserve]
      obtain ⟨-, hrecorded, -⟩ :=
        hknows.write hrun henabled (hreports i henabled) hjob hsync hfinishes
      -- another source's entry stays, and so does its job
      refine ⟨?_, hknows'.read, fun writes' hwrote hwrites' =>
        hrecorded j hne (hknows'.recorded writes' hwrote hwrites')⟩
      obtain ⟨row', hrow', hcollect', hlive'⟩ := hknows'.job
      obtain ⟨f, -, hjobs⟩ := hfinishes.jobs
      refine ⟨row', ?_, hcollect', hlive'⟩
      rw [hjobs, hrow', Option.map_some, if_neg (jobIds_ne hknows hknows' hne)]
    · push Not at hbatch
      rw [serve_read hbatch]
      exact hknows'

end Outline

/-! ## The end of a run -/

/--
**A run ends with the result of every source, as long as each report is written to the run as it was
read**: whatever the sources, in any interleaving of the calls, once all of them have returned.
-/
theorem all_sources_recorded (runId : RunId) (createdAt : Instant) (enabled : SourceName → Bool)
    (jobIds : SourceName → String) (results : SourceName → JobResult) (db : Db)
    (steps : List (SourceName × Instant))
    (hrequested : RunRequested runId createdAt enabled jobIds db)
    (hreports : ∀ source, enabled source = true → (recordedResult (results source)).isSome)
    (hreread : finishMachine.Admits (FinishRace.Reread runId)
      (FinishRace.start db (sourceCalls enabled jobIds results)) steps)
    (hreturned : ∀ source, enabled source = true →
      (finishMachine.run (FinishRace.start db (sourceCalls enabled jobIds results)) steps).result
        source = some (.ok .ack)) :
    AllRecorded runId enabled results
      (finishMachine.run (FinishRace.start db (sourceCalls enabled jobIds results))
        steps).pool.shared := by
  have hqueued : queuedNames (queuedStats (enabledSources enabled)) =
      (enabledSources enabled).map SourceName.name := by
    simp [queuedNames, queuedStats, Json.record]
  -- the outline holds before the first step
  have hstart : (sourceOutline runId enabled jobIds results hreports).Holds
      (FinishRace.start db (sourceCalls enabled jobIds results)) := by
    refine ⟨⟨_, hrequested.run, hqueued, fun hempty => ?_⟩, fun source p hp => ?_⟩
    · simp [SyncJobRow.requested, hempty]
    · refine ⟨finishesAt_start hp, fun henabled => ⟨?_, fun _ h => ?_, fun _ h => ?_⟩⟩
      · obtain ⟨row, hrow, hkind, hkey, hlive⟩ := hrequested.jobs source henabled
        refine ⟨row, hrow, ?_, fun _ => hlive⟩
        rw [collectRun, if_pos hkind, hkey, parseCollectKey_collectKey]
      · cases h
      · cases h
  have hholds := ProofOutline.run hstart hreread
  -- a call that was answered has written, the job not being terminal
  have hrecorded : ∀ source, enabled source = true → SourceRecorded runId enabled results source
      (finishMachine.run (FinishRace.start db (sourceCalls enabled jobIds results))
        steps).pool.shared := by
    intro source henabled
    obtain ⟨hstage, hknows⟩ := hholds.2 source _
      (Watched.result_eq_some.mp (hreturned source henabled))
    obtain ⟨id, result, hcall, hanswer⟩ := hstage
    cases (sourceCalls_eq_some hcall).2
    rcases hanswer with ⟨-, row, hjob, hterminal⟩ | ⟨writes, hwrote, hwrites⟩
    · rw [((hknows henabled).read row hjob).2] at hterminal
      cases hterminal
    · exact (hknows henabled).recorded writes hwrote hwrites
  obtain ⟨row, hrow, -, hnone⟩ := hholds.1
  refine ⟨row, hrow, fun source henabled => ?_, ?_⟩
  · obtain ⟨row', hrow', hlookup, -⟩ := hrecorded source henabled
    cases hrow.symm.trans hrow'
    exact hlookup
  · cases hsources : enabledSources enabled with
    | nil =>
      rw [List.any_nil]
      exact hnone hsources
    | cons source rest =>
      have henabled : ∀ other ∈ enabledSources enabled, enabled other = true :=
        fun other h => mem_enabledSources.mp h
      obtain ⟨row', hrow', -, hsettled⟩ := hrecorded source (henabled source (by simp [hsources]))
      cases hrow.symm.trans hrow'
      rw [← hsources]
      -- every entry is recorded, and the run that holds them all has ended
      refine hsettled.ended (fun other h => hreports other (henabled other h)) fun other h => ?_
      obtain ⟨row', hrow', hlookup, -⟩ := hrecorded other (henabled other h)
      cases hrow.symm.trans hrow'
      exact hlookup

/-! ## Two reports that overlap -/

namespace TwoSources

def runId : RunId := ⟨"5d1e0c3a-77b2-4f0e-9b61-aa10f2c4d8e9", by decide, by decide⟩

/-- Two sources are enabled. -/
def enabled (source : SourceName) : Bool := source = .zhihu || source = .bilibili

def jobIds (source : SourceName) : String := "job-" ++ source.name

/-- The run was requested, and both jobs were claimed. -/
def requestedDb : Db :=
  let row (source : SourceName) : JobRow :=
    JobRow.claimed (collectionJob "" (jobIds source) runId false .manual source) 0
  { Db.empty with
    jobs := ((Table.empty.insert? (row .zhihu)).getD ∅ |>.insert? (row .bilibili)).getD ∅
    syncJobs := (Table.empty.insert?
      (SyncJobRow.requested runId 0 (enabledSources enabled))).getD ∅ }

def results (_ : SourceName) : JobResult := .done none

/-- One source after the other. -/
def inTurn : List (SourceName × Instant) :=
  [(.zhihu, 1000), (.zhihu, 1000), (.zhihu, 1000), (.zhihu, 1000), (.bilibili, 2000),
    (.bilibili, 2000), (.bilibili, 2000), (.bilibili, 2000)]

/-- Both read the run before either writes. -/
def bothRead : List (SourceName × Instant) :=
  [(.zhihu, 1000), (.zhihu, 1000), (.zhihu, 1000), (.bilibili, 1000), (.bilibili, 1000),
    (.bilibili, 1000), (.zhihu, 1001), (.bilibili, 1001)]

/-- The run of the sample is requested. -/
theorem requested : RunRequested runId 0 enabled jobIds requestedDb where
  run := by decide +kernel
  jobs source h := by
    have hrow : ∀ row : JobRow,
        row = JobRow.claimed (collectionJob "" (jobIds source) runId false .manual source) 0 →
        row.kind = .collectSource ∧ row.dedupeKey = collectKey source runId ∧
          row.status.isTerminal = false := by
      rintro row rfl
      exact ⟨rfl, rfl, rfl⟩
    cases source with
    | zhihu | bilibili => exact ⟨_, by decide +kernel, hrow _ rfl⟩
    | telegram | dida | githubStars | bilibiliToview | inoreader | youtube | xBookmarks
    | xLikes => cases h

/-- Both calls, before their first steps. -/
def started : FinishRace SourceName :=
  FinishRace.start requestedDb (sourceCalls enabled jobIds results)

theorem all_sources_recorded_inTurn :
    AllRecorded runId enabled results (finishMachine.run started inTurn).pool.shared :=
  all_sources_recorded runId 0 enabled jobIds results requestedDb inTurn requested (fun _ _ => rfl)
    (by decide +kernel) fun source h => by
      cases source with
      | zhihu | bilibili => decide +kernel
      | telegram | dida | githubStars | bilibiliToview | inoreader | youtube | xBookmarks
      | xLikes => cases h

/-- Both finishes have read the run before either writes. -/
theorem lost_result :
    RunRequested runId 0 enabled jobIds requestedDb ∧
    (∀ source, enabled source = true →
      (finishMachine.run started bothRead).result source = some (.ok .ack)) ∧
    ¬ AllRecorded runId enabled results (finishMachine.run started bothRead).pool.shared := by
  refine ⟨requested, fun source h => ?_, ?_⟩
  · cases source with
    | zhihu | bilibili => decide +kernel
    | telegram | dida | githubStars | bilibiliToview | inoreader | youtube | xBookmarks
    | xLikes => cases h
  · rintro ⟨row, hrow, -, hfinished, -⟩
    have hopen : (syncRow runId (finishMachine.run started bothRead).pool.shared).bind
        SyncJobRow.finishedAt = none := by decide +kernel
    rw [hrow, Option.bind_some] at hopen
    rw [hopen] at hfinished
    cases hfinished

end TwoSources

end InboxServer.D1
