import InboxServer.Api.Sync
import InboxServer.Api.Env

/-!
# What a sync run records

`advanceSyncJob`, said once: the result of the source is set, and everything else of the row follows
from the results that are there (`settledProgress`).
-/

namespace InboxServer

open Infra

/-! ## Entries -/

section Entries

variable {α : Type} (entries : Entries α) (name : String) (value : α) (k : String)

theorem Entries.lookup_replace :
    (entries.map fun e => if e.1 = name then (name, value) else e).lookup k =
      if k = name then (if entries.any (fun e => e.1 = name) then some value else none)
      else entries.lookup k := by
  induction entries with
  | nil => simp
  | cons e entries ih =>
    obtain ⟨n, a⟩ := e
    rw [List.map_cons]
    by_cases hn : n = name
    · by_cases hk : k = name
      · simp [hn, hk]
      · have hne : (k == name) = false := by simpa using hk
        rw [if_pos hn, List.lookup_cons, hne, ih, if_neg hk, if_neg hk, hn, List.lookup_cons, hne]
    · rw [if_neg hn, List.lookup_cons, ih]
      by_cases hk : k = name
      · have hne : (k == n) = false := by
          rw [hk]
          simpa using Ne.symm hn
        simp only [hk] at hne ⊢
        rw [hne]
        simp only [if_true, List.any_cons, hn, decide_false, Bool.false_or]
      · simp [hk, List.lookup_cons]

/-- What is set is found under its name, and what was there under other names still is. -/
theorem Entries.lookup_set :
    (entries.set name value).lookup k = if k = name then some value else entries.lookup k := by
  unfold Entries.set
  split
  · next hany =>
    rw [Entries.lookup_replace, hany]
    rfl
  · next hnone =>
    rw [List.lookup_append]
    by_cases hk : k = name
    · have hfresh : entries.lookup name = none := by
        rw [List.lookup_eq_none_iff]
        intro e he
        have hne : ¬ e.1 = name := fun h => hnone (List.any_eq_true.mpr ⟨e, he, decide_eq_true h⟩)
        simpa using Ne.symm hne
      rw [hk, hfresh]
      simp
    · have hne : (k == name) = false := by simpa using hk
      rw [if_neg hk, List.lookup_cons, hne]
      simp

end Entries

/-! ## Progress -/

/-- The sources that a run was asked for. -/
def queuedNames (stats : Fields) : List String := (Json.record (stats.lookup "queued")).map Prod.fst

/-- The message of the first source that has failed. -/
def failureText (queued : List String) (stats : Fields) : Option String :=
  match (queued.map fun source => stats.lookup source).find? (hasStatus "failed") with
  | some entry =>
    match (Json.record entry).lookup "error" with
    | some (.str text) => some text
    | _ => none
  | none => none

/-- What the results that are there say of a run. -/
def settledProgress (queued : List String) (finishedAt : Instant) (stats : Fields) :
    SyncJobProgress :=
  if queued.all fun source => isTerminalSourceResult (stats.lookup source) then
    { error := failureText queued stats
      finishedAt := some finishedAt
      stats
      status := if failureText queued stats = none then .done else .failed }
  else { error := none, finishedAt := none, stats, status := .running }

theorem advanceSyncJob_eq {stats : Fields} {update : SyncJobUpdate}
    (h : update.source ∈ queuedNames stats) :
    advanceSyncJob stats update = settledProgress (queuedNames stats) update.finishedAt
      (stats.set update.source (sourceResult update)) := by
  unfold advanceSyncJob settledProgress
  simp only [queuedNames] at h
  simp only [h, not_true_eq_false, if_false]
  show (if (!List.all (queuedNames stats) _) = true then _ else _) = _
  cases hall : (queuedNames stats).all fun source =>
      isTerminalSourceResult ((stats.set update.source (sourceResult update)).lookup source) with
  | false => rfl
  | true => rfl

/-- The progress that a row shows. -/
def SyncJobRow.progress (row : SyncJobRow) : SyncJobProgress where
  error := row.error
  finishedAt := row.finishedAt
  stats := row.stats
  status := row.status

@[simp] theorem SyncJobRow.setProgress_progress (next : SyncJobProgress) (row : SyncJobRow) :
    (row.setProgress next).progress = next := rfl

@[simp] theorem settledProgress_stats (queued : List String) (finishedAt : Instant)
    (stats : Fields) : (settledProgress queued finishedAt stats).stats = stats := by
  unfold settledProgress
  split <;> rfl

/-- A row shows what its results say. -/
def SyncJobRow.Settled (queued : List String) (row : SyncJobRow) : Prop :=
  ∃ finishedAt, row.progress = settledProgress queued finishedAt row.stats

/-! ## Results -/

/-- What the report of a result says, apart from the source. -/
def reportAt (timestamp : Instant) : JobResult → Option SyncJobUpdate
  | .done summary => some (doneReport summary timestamp)
  | .failed _ errorMessage _ => some (deadReport (errorMessageOf errorMessage) timestamp)
  | .deferred .. | .uncertain _ => none

/-- The result of a source, as a run keeps it. -/
def recordedResult (result : JobResult) : Option Json := (reportAt 0 result).map sourceResult

def JobResult.hasFailed : JobResult → Bool
  | .failed .. => true
  | .done _ | .deferred .. | .uncertain _ => false

/-- The result that is kept does not depend on the time of the report. -/
theorem recordedResult_eq {timestamp : Instant} {result : JobResult} {report : SyncJobUpdate}
    (h : reportAt timestamp result = some report) (source : String) :
    recordedResult result = some (sourceResult { report with source }) := by
  cases result with
  | done summary | failed errorClass errorMessage payloadDigest =>
    simp only [reportAt, Option.some.injEq] at h
    subst h
    rfl
  | deferred | uncertain => cases h

section Recorded

variable {result : JobResult} (h : (recordedResult result).isSome)

include h

theorem isTerminalSourceResult_recordedResult :
    isTerminalSourceResult (recordedResult result) = true := by
  cases result with
  | done summary => simp [recordedResult, reportAt, doneReport, sourceResult,
      isTerminalSourceResult, hasStatus, Json.record, List.lookup]
  | failed errorClass errorMessage payloadDigest => simp [recordedResult, reportAt, deadReport,
      sourceResult, isTerminalSourceResult, hasStatus, Json.record, List.lookup]
  | deferred | uncertain => cases h

theorem hasStatus_failed_recordedResult :
    hasStatus "failed" (recordedResult result) = result.hasFailed := by
  cases result with
  | done summary => simp [recordedResult, reportAt, doneReport, sourceResult, hasStatus,
      Json.record, List.lookup, JobResult.hasFailed]
  | failed errorClass errorMessage payloadDigest => simp [recordedResult, reportAt, deadReport,
      sourceResult, hasStatus, Json.record, List.lookup, JobResult.hasFailed]
  | deferred | uncertain => cases h

end Recorded

/-- A failed source has a message. -/
theorem failureText_eq_none {sources : List SourceName} {results : SourceName → JobResult}
    {stats : Fields} (hreports : ∀ source ∈ sources, (recordedResult (results source)).isSome)
    (hrecorded : ∀ source ∈ sources,
      stats.lookup source.name = recordedResult (results source)) :
    failureText (sources.map SourceName.name) stats = none ↔
      (sources.any fun source => (results source).hasFailed) = false := by
  unfold failureText
  cases hfind : ((sources.map SourceName.name).map fun source => stats.lookup source).find?
      (hasStatus "failed") with
  | none =>
    refine iff_of_true rfl (List.any_eq_false.mpr fun source hsource => ?_)
    have hnot := List.find?_eq_none.mp hfind (stats.lookup source.name) (by
      simp only [List.map_map, List.mem_map, Function.comp_apply]
      exact ⟨source, hsource, rfl⟩)
    rw [hrecorded source hsource,
      hasStatus_failed_recordedResult (hreports source hsource)] at hnot
    exact hnot
  | some entry =>
    have hmem := List.mem_of_find?_eq_some hfind
    have hstatus : hasStatus "failed" entry = true := by simpa using List.find?_some hfind
    simp only [List.map_map, List.mem_map, Function.comp_apply] at hmem
    obtain ⟨source, hsource, rfl⟩ := hmem
    rw [hrecorded source hsource] at hstatus ⊢
    rw [hasStatus_failed_recordedResult (hreports source hsource)] at hstatus
    refine iff_of_false (fun h => ?_) fun h => ?_
    · cases hresult : results source with
      | failed errorClass errorMessage payloadDigest =>
        rw [hresult] at h
        simp [recordedResult, reportAt, sourceResult, deadReport, Json.record, List.lookup] at h
      | done | deferred | uncertain =>
        rw [hresult] at hstatus
        cases hstatus
    · exact absurd hstatus (List.any_eq_false.mp h source hsource)

/-- **A run with the results of all its sources has ended, as they say.** -/
theorem SyncJobRow.Settled.ended {sources : List SourceName} {results : SourceName → JobResult}
    {row : SyncJobRow} (hsettled : row.Settled (sources.map SourceName.name))
    (hreports : ∀ source ∈ sources, (recordedResult (results source)).isSome)
    (hrecorded : ∀ source ∈ sources,
      row.stats.lookup source.name = recordedResult (results source)) :
    row.finishedAt.isSome ∧
      row.status = if sources.any fun source => (results source).hasFailed then .failed else .done := by
  obtain ⟨finishedAt, hprogress⟩ := hsettled
  have hall : ((sources.map SourceName.name).all fun source =>
      isTerminalSourceResult (row.stats.lookup source)) = true := by
    simp only [List.all_map, List.all_eq_true, Function.comp_apply]
    intro source hsource
    rw [hrecorded source hsource]
    exact isTerminalSourceResult_recordedResult (hreports source hsource)
  rw [settledProgress, if_pos hall] at hprogress
  have hfinished : row.finishedAt = some finishedAt := congrArg SyncJobProgress.finishedAt hprogress
  have hstatus : row.status = _ := congrArg SyncJobProgress.status hprogress
  refine ⟨by rw [hfinished]; rfl, hstatus.trans ?_⟩
  have htext := failureText_eq_none hreports hrecorded
  cases hany : sources.any fun source => (results source).hasFailed with
  | false => rw [if_pos (htext.mpr hany), if_neg Bool.false_ne_true]
  | true =>
    rw [if_neg fun h => ?_, if_pos rfl]
    rw [htext.mp h] at hany
    cases hany

end InboxServer
