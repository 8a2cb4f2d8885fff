import InboxServer.Properties.SyncRuns

/-!
# The order in which sources end

* `advanceSyncJob_order` — what a sync run shows once all its sources have ended does not depend on
  the order in which they did, and until then it is running
-/

namespace InboxServer

open Infra

/-! ## Updates -/

/-- Stats of a run that has no result of a source that it was asked for. -/
structure FreshStats (stats : Fields) : Prop where
  nodup : (queuedNames stats).Nodup
  reserved : "queued" ∉ queuedNames stats
  pending : ∀ source ∈ queuedNames stats, isTerminalSourceResult (stats.lookup source) = false

/-- The update with which a source ends at an instant. -/
def endOf (result : String → SyncJobUpdate) (ended : String × Instant) : SyncJobUpdate :=
  { result ended.1 with source := ended.1, finishedAt := ended.2 }

/-- The stats after the sources have ended, one after another. -/
def statsAfter (result : String → SyncJobUpdate) (stats : Fields) (order : List (String × Instant)) :
    Fields :=
  order.foldl (fun stats ended => (advanceSyncJob stats (endOf result ended)).stats) stats

/-- What the run shows after the last of some updates. -/
def progressAfter (result : String → SyncJobUpdate) (stats : Fields)
    (before : List (String × Instant)) (last : String × Instant) : SyncJobProgress :=
  advanceSyncJob (statsAfter result stats before) (endOf result last)

theorem statsAfter_snoc (result : String → SyncJobUpdate) (stats : Fields)
    (before : List (String × Instant)) (last : String × Instant) :
    statsAfter result stats (before ++ [last]) = (progressAfter result stats before last).stats := by
  rw [statsAfter, List.foldl_append]
  rfl

/-- An update of a source that the run was not asked for changes nothing. -/
theorem advanceSyncJob_outside {stats : Fields} {update : SyncJobUpdate}
    (h : update.source ∉ queuedNames stats) : (advanceSyncJob stats update).stats = stats := by
  unfold advanceSyncJob
  simp only [queuedNames] at h
  simp only [h, not_false_eq_true, if_true]

theorem sourceResult_endOf (result : String → SyncJobUpdate) (ended : String × Instant) :
    sourceResult (endOf result ended) = sourceResult (result ended.1) := rfl

/-! ## Stats -/

section Stats

variable {result : String → SyncJobUpdate} {stats : Fields} {order : List (String × Instant)}

/-- The results of the sources that have ended stand beside what was there. -/
theorem statsAfter_lookup (result : String → SyncJobUpdate) (hreserved : "queued" ∉ queuedNames stats)
    (horder : ∀ ended ∈ order, ended.1 ∈ queuedNames stats) :
    queuedNames (statsAfter result stats order) = queuedNames stats ∧
      ∀ name, (statsAfter result stats order).lookup name =
        if name ∈ order.map Prod.fst then some (sourceResult (result name))
        else stats.lookup name := by
  induction order using List.reverseRecOn with
  | nil => exact ⟨rfl, fun name => by simp [statsAfter]⟩
  | append_singleton before last ih =>
    obtain ⟨hqueued, hlookup⟩ := ih fun ended hended => horder ended (List.mem_append_left _ hended)
    have hlast : last.1 ∈ queuedNames stats :=
      horder last (List.mem_append_right _ (List.mem_singleton_self last))
    have hname : (endOf result last).source = last.1 := rfl
    have hstats : statsAfter result stats (before ++ [last]) =
        (statsAfter result stats before).set last.1 (sourceResult (result last.1)) := by
      rw [statsAfter_snoc, progressAfter, advanceSyncJob_eq (by rw [hname, hqueued]; exact hlast),
        settledProgress_stats, sourceResult_endOf, hname]
    constructor
    · have hne : "queued" ≠ last.1 := fun heq => hreserved (heq ▸ hlast)
      rw [hstats, queuedNames, Entries.lookup_set, if_neg hne]
      exact hqueued
    · intro name
      rw [hstats, Entries.lookup_set, hlookup]
      by_cases hsame : name = last.1
      · rw [if_pos hsame, if_pos (by rw [hsame]; simp), hsame]
      · have hmem : name ∈ (before ++ [last]).map Prod.fst ↔ name ∈ before.map Prod.fst := by
          simp only [List.map_append, List.mem_append, List.map_singleton, List.mem_singleton,
            hsame, or_false]
        rw [if_neg hsame]
        exact (if_congr hmem rfl rfl).symm

theorem progressAfter_eq {before : List (String × Instant)} {last : String × Instant}
    (hreserved : "queued" ∉ queuedNames stats)
    (horder : ∀ ended ∈ before ++ [last], ended.1 ∈ queuedNames stats) :
    progressAfter result stats before last = settledProgress (queuedNames stats) last.2
      (statsAfter result stats (before ++ [last])) := by
  have hbefore := statsAfter_lookup result hreserved
    fun ended hended => horder ended (List.mem_append_left _ hended)
  have hlast : (endOf result last).source ∈ queuedNames (statsAfter result stats before) := by
    rw [hbefore.1]
    exact horder last (List.mem_append_right _ (List.mem_singleton_self last))
  have hprogress := advanceSyncJob_eq hlast
  rw [hbefore.1] at hprogress
  rw [statsAfter_snoc, progressAfter, hprogress, settledProgress_stats]
  rfl

end Stats

/-! ## Ends -/

/-- What a run shows while a source has not ended. -/
structure SyncJobProgress.Running (progress : SyncJobProgress) : Prop where
  error : progress.error = none
  finishedAt : progress.finishedAt = none
  status : progress.status = .running

/-- What a run shows when the last of its sources has ended. -/
structure SyncJobProgress.EndedWith (result : String → SyncJobUpdate) (stats : Fields)
    (finishedAt : Instant) (progress : SyncJobProgress) : Prop where
  /-- The error is that of the first failed source in the order of the queue. -/
  error : progress.error = ((queuedNames stats).find? fun source => !(result source).done).map
    fun source => (result source).errorMessage.getD "collection failed"
  finishedAt : progress.finishedAt = some finishedAt
  failed : progress.status = .failed ↔ ∃ source ∈ queuedNames stats, (result source).done = false
  done : progress.status = .done ↔ ∀ source ∈ queuedNames stats, (result source).done = true
  stats : ∀ name, progress.stats.lookup name =
    if name ∈ queuedNames stats then some (sourceResult (result name)) else stats.lookup name

/-- Two runs show the same, except for the time at which they ended. -/
structure SyncJobProgress.SameEnd (a b : SyncJobProgress) : Prop where
  stats : ∀ name, a.stats.lookup name = b.stats.lookup name
  status : a.status = b.status
  error : a.error = b.error

theorem isTerminalSourceResult_sourceResult (update : SyncJobUpdate) :
    isTerminalSourceResult (some (sourceResult update)) = true := by
  unfold sourceResult
  split <;> simp [isTerminalSourceResult, hasStatus, Json.record, List.lookup]

theorem hasStatus_failed_sourceResult (update : SyncJobUpdate) :
    hasStatus "failed" (some (sourceResult update)) = !update.done := by
  unfold sourceResult
  split
  · next hdone => simp [hdone, hasStatus, Json.record, List.lookup]
  · next hfailed => simp [hfailed, hasStatus, Json.record, List.lookup]

/-- The message of a run is that of the first source that has failed. -/
theorem failureText_sourceResult {result : String → SyncJobUpdate} {queued : List String}
    {stats : Fields}
    (hstats : ∀ source ∈ queued, stats.lookup source = some (sourceResult (result source))) :
    failureText queued stats = (queued.find? fun source => !(result source).done).map
      fun source => (result source).errorMessage.getD "collection failed" := by
  induction queued with
  | nil => rfl
  | cons source queued ih =>
    have hrest := ih fun other hother => hstats other (List.mem_cons_of_mem _ hother)
    have hsource := hstats source (List.mem_cons_self)
    unfold failureText at hrest ⊢
    rw [List.map_cons, List.find?_cons, List.find?_cons, hsource, hasStatus_failed_sourceResult]
    cases hdone : (result source).done with
    | true => simpa using hrest
    | false => simp [sourceResult, hdone, Json.record, List.lookup]

section Order

variable {result : String → SyncJobUpdate} {stats : Fields} {before : List (String × Instant)}
  {last : String × Instant}

/-- As long as a source has not ended, the run is running. -/
theorem progressAfter_running {after : List (String × Instant)} (hfresh : FreshStats stats)
    (horder : ((before ++ last :: after).map Prod.fst).Perm (queuedNames stats))
    (hafter : after ≠ []) : (progressAfter result stats before last).Running := by
  have hmem : ∀ ended ∈ before ++ [last], ended.1 ∈ queuedNames stats := by
    intro ended hended
    refine horder.subset (List.mem_map_of_mem ?_)
    rcases List.mem_append.mp hended with hleft | hright
    · exact List.mem_append_left _ hleft
    · rw [List.mem_singleton.mp hright]
      exact List.mem_append_right _ List.mem_cons_self
  obtain ⟨next, rest, rfl⟩ := List.exists_cons_of_ne_nil hafter
  have hqueued : next.1 ∈ queuedNames stats := horder.subset (by simp)
  -- no source ends twice, so the next one has no result yet
  have hpending : next.1 ∉ (before ++ [last]).map Prod.fst := by
    have hnodup := horder.nodup_iff.mpr hfresh.nodup
    rw [List.append_cons, List.map_append, List.nodup_append] at hnodup
    intro hended
    exact hnodup.2.2 _ hended _ (by simp) rfl
  have hnone : ((queuedNames stats).all fun source => isTerminalSourceResult
      ((statsAfter result stats (before ++ [last])).lookup source)) = false := by
    refine List.all_eq_false.mpr ⟨next.1, hqueued, ?_⟩
    rw [(statsAfter_lookup result hfresh.reserved hmem).2, if_neg hpending, hfresh.pending _ hqueued]
    exact Bool.false_ne_true
  rw [progressAfter_eq hfresh.reserved hmem, settledProgress, if_neg (by simp [hnone])]
  exact ⟨rfl, rfl, rfl⟩

/-- After the last source, the run has ended as its results say. -/
theorem progressAfter_ended (result : String → SyncJobUpdate) (hfresh : FreshStats stats)
    (horder : ((before ++ [last]).map Prod.fst).Perm (queuedNames stats)) :
    (progressAfter result stats before last).EndedWith result stats last.2 := by
  have hmem : ∀ ended ∈ before ++ [last], ended.1 ∈ queuedNames stats :=
    fun ended hended => horder.subset (List.mem_map_of_mem hended)
  have hlookup : ∀ name, (statsAfter result stats (before ++ [last])).lookup name =
      if name ∈ queuedNames stats then some (sourceResult (result name))
      else stats.lookup name := by
    intro name
    rw [(statsAfter_lookup result hfresh.reserved hmem).2]
    simp only [horder.mem_iff]
  have hresults : ∀ source ∈ queuedNames stats,
      (statsAfter result stats (before ++ [last])).lookup source =
        some (sourceResult (result source)) := by
    intro source hsource
    rw [hlookup, if_pos hsource]
  have hall : ((queuedNames stats).all fun source => isTerminalSourceResult
      ((statsAfter result stats (before ++ [last])).lookup source)) = true := by
    refine List.all_eq_true.mpr fun source hsource => ?_
    rw [hresults source hsource]
    exact isTerminalSourceResult_sourceResult _
  have htext := failureText_sourceResult hresults
  have hfailed : failureText (queuedNames stats) (statsAfter result stats (before ++ [last])) = none ↔
      ∀ source ∈ queuedNames stats, (result source).done = true := by
    rw [htext, Option.map_eq_none_iff, List.find?_eq_none]
    simp
  rw [progressAfter_eq hfresh.reserved hmem, settledProgress, if_pos hall]
  refine ⟨htext, rfl, ?_, ?_, hlookup⟩
  · rw [← not_iff_not]
    by_cases hnone : failureText (queuedNames stats)
        (statsAfter result stats (before ++ [last])) = none
    · simpa [hnone] using hfailed.mp hnone
    · simpa [hnone] using fun h => hnone (hfailed.mpr h)
  · by_cases hnone : failureText (queuedNames stats)
        (statsAfter result stats (before ++ [last])) = none
    · simpa [hnone] using hfailed.mp hnone
    · simpa [hnone] using fun h => hnone (hfailed.mpr h)

/-- **The order in which the sources end does not show**, and until the last of them the run is
running. -/
theorem advanceSyncJob_order (result : String → SyncJobUpdate) (hfresh : FreshStats stats) :
    (∀ before last after, ((before ++ last :: after).map Prod.fst).Perm (queuedNames stats) →
      after ≠ [] → (progressAfter result stats before last).Running) ∧
    (∀ before last, ((before ++ [last]).map Prod.fst).Perm (queuedNames stats) →
      (progressAfter result stats before last).EndedWith result stats last.2) ∧
    (∀ before last before' last',
      ((before ++ [last]).map Prod.fst).Perm (queuedNames stats) →
      ((before' ++ [last']).map Prod.fst).Perm (queuedNames stats) →
      (progressAfter result stats before last).SameEnd
        (progressAfter result stats before' last')) ∧
    ∀ current update, update.source ∉ queuedNames current →
      (advanceSyncJob current update).stats = current := by
  refine ⟨fun before last after horder hafter => progressAfter_running hfresh horder hafter,
    fun before last horder => progressAfter_ended result hfresh horder, ?_,
    fun current update houtside => advanceSyncJob_outside houtside⟩
  intro before last before' last' horder horder'
  have hended := progressAfter_ended result hfresh horder
  have hended' := progressAfter_ended result hfresh horder'
  refine ⟨fun name => by rw [hended.stats, hended'.stats], ?_, by rw [hended.error, hended'.error]⟩
  by_cases hdone : ∀ source ∈ queuedNames stats, (result source).done = true
  · rw [hended.done.mpr hdone, hended'.done.mpr hdone]
  · push Not at hdone
    simp only [ne_eq, Bool.not_eq_true] at hdone
    rw [hended.failed.mpr hdone, hended'.failed.mpr hdone]

end Order

/-- Two sources, of which the second fails first. -/
theorem advanceSyncJob_order_two :
    FreshStats (queuedStats [.zhihu, .telegram]) ∧
    (progressAfter (fun name => if name = "zhihu" then doneReport none 0 else deadReport "HTTP 500" 0)
      (queuedStats [.zhihu, .telegram]) [("telegram", 1)] ("zhihu", 2)).EndedWith
      (fun name => if name = "zhihu" then doneReport none 0 else deadReport "HTTP 500" 0)
      (queuedStats [.zhihu, .telegram]) 2 := by
  have hfresh : FreshStats (queuedStats [.zhihu, .telegram]) :=
    ⟨by decide, by decide, by decide⟩
  exact ⟨hfresh, (advanceSyncJob_order _ hfresh).2.1 [("telegram", 1)] ("zhihu", 2) (by decide)⟩

end InboxServer
