import InboxServer.Api.SyncJob

/-!
# Requests of sync runs

What `requestSync` of `apps/api/src/operations-postgres.ts` (and of `operations.ts`, for D1) writes
for a run, and `buildCollectionJobs`.
-/

namespace InboxServer

/-- The id of a run: a random UUID, of which only this is used. -/
structure RunId where
  text : String
  nonempty : text ≠ ""
  oneLine : text.toList.any isLineTerminator = false

/-- `collect:${source}:${runId}` -/
def collectKey (source : SourceName) (runId : RunId) : String :=
  "collect:" ++ (source.name ++ ":" ++ runId.text)

/-- A job of `buildCollectionJobs`. -/
def collectionJob (createdAt jobId : String) (runId : RunId) (shadow : Bool)
    (triggeredBy : TriggeredBy) (source : SourceName) : QueueJob where
  createdAt
  dedupeKey := collectKey source runId
  jobId
  payload := .collectSource shadow source triggeredBy

/-- `{ queued }` -/
def queuedStats (sources : List SourceName) : Fields :=
  [("queued", .obj (sources.map fun source => (source.name, .num "1")))]

/-- The row that is inserted for a run over the sources. -/
def SyncJobRow.requested (runId : RunId) (createdAt : Instant) (sources : List SourceName) :
    SyncJobRow where
  id := runId.text
  status := if sources.isEmpty then .done else .running
  stats := queuedStats sources
  finishedAt := if sources.isEmpty then some createdAt else none
  error := none

/-- The update after a publication that has failed. -/
def SyncJobRow.setPublishFailed (message : String) (now : Instant) (row : SyncJobRow) :
    SyncJobRow :=
  { row with error := some message, finishedAt := some now, status := .failed }

instance (message : String) (now : Instant) :
    Infra.Table.AddsNoConflict (SyncJobRow.setPublishFailed message now) := ⟨fun _ _ h => h⟩

/-! ## Keys -/

theorem SourceName.name_ne_empty (source : SourceName) : source.name.toList ≠ [] := by
  cases source <;> decide

theorem SourceName.colon_notMem_name (source : SourceName) : ':' ∉ source.name.toList := by
  cases source <;> decide

theorem SourceName.name_injective : Function.Injective SourceName.name := by
  intro a b h
  have := congrArg SourceName.ofText? h
  rw [SourceName.ofText?_name, SourceName.ofText?_name] at this
  exact Option.some.inj this

/-- The key of a collection job names its source and its run. -/
theorem parseCollectKey_collectKey (source : SourceName) (runId : RunId) :
    parseCollectKey (collectKey source runId) = some (source.name, runId.text) := by
  have hkey : (collectKey source runId).toList =
      "collect:".toList ++ (source.name.toList ++ ':' :: runId.text.toList) := by
    simp [collectKey]
  have hpre : "collect:".toList.isPrefixOf (collectKey source runId).toList = true := by
    rw [hkey]
    exact List.isPrefixOf_iff_prefix.mpr (List.prefix_append _ _)
  have hdrop : (collectKey source runId).toList.drop "collect:".length =
      source.name.toList ++ ':' :: runId.text.toList := by
    rw [hkey]
    exact List.drop_left
  have hall : ∀ c ∈ source.name.toList, decide (c ≠ ':') = true := by
    intro c hc
    refine decide_eq_true fun h => ?_
    rw [h] at hc
    exact source.colon_notMem_name hc
  have htake : (source.name.toList ++ ':' :: runId.text.toList).takeWhile (· ≠ ':') =
      source.name.toList := by
    rw [List.takeWhile_append_of_pos hall]
    simp
  have hrest : (source.name.toList ++ ':' :: runId.text.toList).dropWhile (· ≠ ':') =
      ':' :: runId.text.toList := by
    rw [List.dropWhile_append_of_pos hall]
    simp
  have hname : source.name.toList.isEmpty = false := by
    simpa using source.name_ne_empty
  have hrun : runId.text.toList.isEmpty = false := by
    simpa using runId.nonempty
  unfold parseCollectKey
  rw [hpre]
  simp only [hdrop, htake, hrest, hname, hrun, runId.oneLine, Bool.or_self, Bool.false_eq_true,
    if_false, String.ofList_toList]

end InboxServer
