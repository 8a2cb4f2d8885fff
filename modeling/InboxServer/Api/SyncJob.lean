import InboxServer.Api.Tables

/-!
# Completion of sync runs

`advanceSyncJob` of `apps/api/src/operations.ts`, and `updateSyncJobCompletion`, with which a
finished collection job reports to the run that asked for it.
-/

namespace InboxServer

open Infra

/-- What a finished source reports. -/
structure SyncJobUpdate where
  errorMessage : Option String
  finishedAt : Instant
  source : String
  /-- `"done"`; otherwise `"failed"`. -/
  done : Bool
  summary : Option Fields

structure SyncJobProgress where
  error : Option String
  finishedAt : Option Instant
  stats : Fields
  status : SyncJobStatus
  deriving DecidableEq

/-- `nonnegativeNumber(value)`, the text of a negative number having a sign. -/
def nonnegativeNumber : Option Json → Json
  | some (.num text) => if text.startsWith "-" then .num "0" else .num text
  | _ => .num "0"

/-- `isRecord(value) && value.status === status` -/
def hasStatus (status : String) (value : Option Json) : Bool :=
  (Json.record value).lookup "status" = some (.str status)

def isTerminalSourceResult (value : Option Json) : Bool :=
  hasStatus "done" value || hasStatus "failed" value

/-- The result of a source, as `stats` keeps it. -/
def sourceResult (update : SyncJobUpdate) : Json :=
  if update.done then
    let collected := nonnegativeNumber ((update.summary.getD []).lookup "collected")
    let published := nonnegativeNumber ((update.summary.getD []).lookup "published")
    .obj [("collected", collected), ("enqueued", .obj [("total", published)]),
      ("published", published), ("status", .str "done")]
  else
    .obj [("enqueued", .obj []), ("error", .str (update.errorMessage.getD "collection failed")),
      ("status", .str "failed")]

def advanceSyncJob (currentStats : Fields) (update : SyncJobUpdate) : SyncJobProgress :=
  let queuedSources := (Json.record (currentStats.lookup "queued")).map Prod.fst
  if update.source ∉ queuedSources then
    { error := none, finishedAt := none, stats := currentStats, status := .running }
  else
    let stats := currentStats.set update.source (sourceResult update)
    if !queuedSources.all (fun source => isTerminalSourceResult (stats.lookup source)) then
      { error := none, finishedAt := none, stats, status := .running }
    else
      let failed := (queuedSources.map fun source => stats.lookup source).find? (hasStatus "failed")
      let error := match failed with
        | some entry =>
          match (Json.record entry).lookup "error" with
          | some (.str text) => some text
          | _ => none
        | none => none
      { error
        finishedAt := some update.finishedAt
        stats
        status := if error = none then .done else .failed }

def SyncJobRow.setProgress (next : SyncJobProgress) (row : SyncJobRow) : SyncJobRow :=
  { row with
    stats := next.stats, status := next.status, error := next.error, finishedAt := next.finishedAt }

instance (next : SyncJobProgress) : Table.AddsNoConflict (SyncJobRow.setProgress next) :=
  ⟨fun _ _ h => h⟩

/-! ## Collection jobs -/

/-- `/^collect:([^:]+):(.+)$/`: the source, and the id of the sync run. -/
def parseCollectKey (dedupeKey : String) : Option (String × String) :=
  match "collect:".toList.isPrefixOf dedupeKey.toList with
  | false => none
  | true =>
    let rest := dedupeKey.toList.drop "collect:".length
    let source := rest.takeWhile (· ≠ ':')
    match rest.dropWhile (· ≠ ':') with
    | ':' :: runId =>
      if source.isEmpty || runId.isEmpty || runId.any isLineTerminator then none
      else some (String.ofList source, String.ofList runId)
    | _ => none

example : parseCollectKey "collect:zhihu:run:1" = some ("zhihu", "run:1") := by decide

/-- The source and the sync run of a job row; a job of another kind has none. -/
def collectRun (row : JobRow) : Option (String × String) :=
  if row.kind = .collectSource then parseCollectKey row.dedupeKey else none

/-- What a job that is done reports, apart from its source. -/
def doneReport (summary : Option Fields) (now : Instant) : SyncJobUpdate where
  errorMessage := none
  finishedAt := now
  source := ""
  done := true
  summary

/-- What a job that died reports, apart from its source. -/
def deadReport (errorMessage : String) (now : Instant) : SyncJobUpdate where
  errorMessage := if errorMessage = "" then none else some (slice500 errorMessage)
  finishedAt := now
  source := ""
  done := false
  summary := none

/-- `updateSyncJobCompletion`; `report` is what the source reports, without its name. -/
def updateSyncJobCompletion (row : JobRow) (report : SyncJobUpdate) (syncJobs : Table SyncJobRow) :
    Table SyncJobRow :=
  match collectRun row with
  | none => syncJobs
  | some (source, runId) =>
    match syncJobs.lookup SyncJobRow.id runId with
    | none => syncJobs
    | some syncJob =>
      let next := advanceSyncJob syncJob.stats { report with source }
      syncJobs.update (fun r => r.id = runId) (SyncJobRow.setProgress next)

end InboxServer
