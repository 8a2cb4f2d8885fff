import InboxServer.Properties.RateDecisions

/-!
# How long a refused article is held

An article that its limits refuse is deferred until the counters that refuse it have expired. A
counter expires a whole day, or window, after its first use, and its bucket ends before that.

* `heldNoLonger_iff` — an article is held no longer than its limits require when a bucket that
  refuses it lasts until the retry instant, and then only
-/

namespace InboxServer

open Infra Postgres

/-! ## The limits of articles -/

section Limits

variable (archive : ArticleArchive)

abbrev articlePolicy : RatePolicy := ratePolicy archive .article

def articleDaily : ScopeOf (articlePolicy archive) "article:daily" :=
  dailyScopeOf archive.dailyLimit_pos rfl

def articleWindow : ScopeOf (articlePolicy archive) "article:window" :=
  windowScopeOf archive.rateWindowCount_pos archive.rateWindowSeconds_pos

/-- Every input of an article belongs to one of its two limits. -/
theorem articleScope {t : Instant} {input : RateLimitInput}
    (h : input ∈ (articlePolicy archive).inputs .article t) :
    Nonempty (ScopeOf (articlePolicy archive) input.scope) := by
  rcases mem_inputs.mp h with ⟨limit, -, rfl⟩ | ⟨-, rfl⟩
  · exact ⟨articleDaily archive⟩
  · exact ⟨articleWindow archive⟩

end Limits

/-! ## What is stored -/

/-- The states that the calls for articles find. -/
def articleStates (policy : RatePolicy) (batches : Table RateLimitBatchRow) : List RateLimitState :=
  storedStates (batchScope (policy.inputs .article 0)) batches

/-- Every stored counter is that of a bucket that some call was computed for. -/
theorem stored_origin {policy : RatePolicy} {scope : String} (of : ScopeOf policy scope)
    (calls : List RateCall) :
    ∀ state ∈ articleStates policy ((rateMachine policy).run ∅ calls), state.scope = scope →
      ∃ call ∈ calls, state.bucketKey = of.key call.computed := by
  unfold articleStates
  induction calls using List.reverseRecOn with
  | nil => exact fun state h => absurd h List.not_mem_nil
  | append_singleton calls call ih =>
    have hearlier : ∀ state ∈ storedStates (batchScope (policy.inputs .article 0))
        ((rateMachine policy).run ∅ calls), state.scope = scope →
          ∃ c ∈ calls ++ [call], state.bucketKey = of.key c.computed := by
      intro state hstate hscope
      obtain ⟨c, hc, hkey⟩ := ih state hstate hscope
      exact ⟨c, List.mem_append_left _ hc, hkey⟩
    rw [Machine.run_snoc]
    have houtcome := rateMachine_outcome policy ((rateMachine policy).run ∅ calls) call
    unfold Machine.next
    cases hstep : (rateMachine policy).step ((rateMachine policy).run ∅ calls) call with
    | mk after reply =>
      rw [hstep] at houtcome
      cases houtcome with
      | refused _ => exact hearlier
      | empty _ => exact hearlier
      | allowed room stored =>
        rw [RateCall.inputs, batchScope_inputs policy call.computed 0] at stored
        intro state hstate hscope
        rw [stored] at hstate
        obtain ⟨input, hinput, rfl⟩ := List.mem_map.mp hstate
        exact ⟨call, List.mem_append_right _ (List.mem_singleton_self call),
          (of.inputs _ input hinput hscope).1⟩

/-! ## Refusals -/

/-- A call at the instant would be refused. -/
def RefusedAt (policy : RatePolicy) (batches : Table RateLimitBatchRow) (u : Instant) : Prop :=
  ∃ counts retryAt,
    consumeRateLimits u (policy.inputs .article u) batches = .ok (.refused counts retryAt, batches)

theorem consumeRateLimits_refused {now : Instant} {inputs : List RateLimitInput}
    {batches batches' : Table RateLimitBatchRow} {counts : Entries Nat} {retryAt : Instant} :
    consumeRateLimits now inputs batches = .ok (.refused counts retryAt, batches') ↔
      batches' = batches ∧ ∃ nextStates,
        decideRateLimitBatch inputs (storedStates (batchScope inputs) batches) now =
          .rejected counts nextStates retryAt := by
  unfold consumeRateLimits
  by_cases hempty : inputs.isEmpty = true
  · rw [if_pos hempty, List.isEmpty_iff.mp hempty]
    constructor
    · intro h
      cases h
    · rintro ⟨-, nextStates, h⟩
      cases h
  · rw [if_neg hempty]
    dsimp only
    rw [storedStates]
    cases hdecide : decideRateLimitBatch inputs
        (((batches.lookup RateLimitBatchRow.scope (batchScope inputs)).map
          RateLimitBatchRow.state).getD []) now with
    | rejected counts nextStates until' =>
      dsimp only
      constructor
      · intro h
        cases h
        exact ⟨rfl, nextStates, rfl⟩
      · rintro ⟨rfl, _, h⟩
        cases h
        rfl
    | allowed counts nextStates =>
      dsimp only
      constructor
      · intro h
        split at h
        · cases h
        · split at h <;> cases h
      · rintro ⟨-, _, h⟩
        cases h

theorem refusedAt_iff {policy : RatePolicy} {batches : Table RateLimitBatchRow} {u : Instant} :
    RefusedAt policy batches u ↔ ∃ input ∈ policy.inputs .article u, ∃ until',
      rejectedUntil input (findState (articleStates policy batches) input) u = some until' := by
  have hstates : storedStates (batchScope (policy.inputs .article u)) batches =
      articleStates policy batches := by
    rw [articleStates, batchScope_inputs policy u 0]
  unfold RefusedAt
  simp only [consumeRateLimits_refused, hstates]
  constructor
  · rintro ⟨counts, retryAt, -, nextStates, h⟩
    obtain ⟨-, ⟨input, hinput, huntil⟩, -⟩ := rejected_retryAt h
    exact ⟨input, hinput, retryAt, huntil⟩
  · rintro ⟨input, hinput, until', huntil⟩
    obtain ⟨counts, nextStates, retryAt, h⟩ := decide_rejected hinput huntil
    exact ⟨counts, retryAt, trivial, nextStates, h⟩

/-! ## The bucket of a refusal -/

section Held

variable {archive : ArticleArchive} {calls : List RateCall} {t : Instant}

/-- The counter of the input is live, and it is full. -/
structure RefusedBy (states : List RateLimitState) (t : Instant) (input : RateLimitInput)
    (state : RateLimitState) : Prop where
  found : findState states input = some state
  live : t < state.expiresAt
  full : input.limit ≤ state.count

/-- Of the counters that refuse at `t`, one that expires last has a bucket that lasts until then. -/
def BucketLasts (policy : RatePolicy) (states : List RateLimitState) (t : Instant) : Prop :=
  ∃ input ∈ policy.inputs .article t, ∃ state, RefusedBy states t input state ∧
    (∀ other ∈ policy.inputs .article t, ∀ earlier, RefusedBy states t other earlier →
      earlier.expiresAt ≤ state.expiresAt) ∧
    ∃ last ∈ policy.inputs .article (state.expiresAt - 1),
      last.scope = input.scope ∧ last.bucketKey = input.bucketKey

theorem rejectedUntil_iff {states : List RateLimitState} {input : RateLimitInput}
    (hlimit : 0 < input.limit) {until' : Instant} :
    rejectedUntil input (findState states input) t = some until' ↔
      ∃ state, RefusedBy states t input state ∧ state.expiresAt = until' := by
  rw [rejectedUntil_eq_some hlimit]
  refine exists_congr fun state => ?_
  constructor
  · rintro ⟨hfound, hlive, hfull, hend⟩
    exact ⟨⟨hfound, hlive, hfull⟩, hend⟩
  · rintro ⟨⟨hfound, hlive, hfull⟩, hend⟩
    exact ⟨hfound, hlive, hfull, hend⟩

/-- The counter of a bucket refuses at every instant of the bucket before it expires. -/
theorem RefusedBy.at {states : List RateLimitState} {input later : RateLimitInput}
    {state : RateLimitState} (h : RefusedBy states t input state) (hscope : later.scope = input.scope)
    (hkey : later.bucketKey = input.bucketKey) (hsame : later.limit = input.limit) {u : Instant}
    (hu : u < state.expiresAt) : RefusedBy states u later state where
  found := by
    rw [← h.found]
    unfold findState
    rw [hscope, hkey]
  live := hu
  full := hsame.trans_le h.full

/-- Before its bucket ends, a limit has one bucket. -/
theorem ScopeOf.key_eq_of_le {policy : RatePolicy} {scope : String} (of : ScopeOf policy scope)
    {s u : Instant} (hs : sinceShanghaiOffset ≤ s) (hst : s ≤ t) (htu : t ≤ u)
    (h : of.key s = of.key u) : of.key t = of.key u := by
  have ht := hs.trans hst
  have hu := ht.trans htu
  have hnumber := (of.key_eq_iff s u hs hu).mp h
  have hbefore := of.mono s t hst
  have hafter := of.mono t u htu
  exact (of.key_eq_iff t u ht hu).mpr (by omega)

theorem articleLimit_pos {u : Instant} {input : RateLimitInput}
    (hinput : input ∈ (articlePolicy archive).inputs .article u) : 0 < input.limit := by
  obtain ⟨of⟩ := articleScope archive hinput
  rw [(of.inputs u input hinput rfl).2]
  exact of.limit_pos

/-- The retry instant is where the last of the counters that refuse expires. -/
theorem refused_last {batches batches' : Table RateLimitBatchRow} {counts : Entries Nat}
    {retryAt : Instant}
    (h : consumeRateLimits t ((articlePolicy archive).inputs .article t) batches =
      .ok (.refused counts retryAt, batches')) :
    ∃ last ∈ (articlePolicy archive).inputs .article t, ∃ counter,
      RefusedBy (articleStates (articlePolicy archive) batches) t last counter ∧
        counter.expiresAt = retryAt ∧
        ∀ input ∈ (articlePolicy archive).inputs .article t, ∀ state,
          RefusedBy (articleStates (articlePolicy archive) batches) t input state →
            state.expiresAt ≤ counter.expiresAt := by
  obtain ⟨-, nextStates, hdecide⟩ := consumeRateLimits_refused.mp h
  rw [batchScope_inputs (articlePolicy archive) t 0] at hdecide
  obtain ⟨-, ⟨last, hlast, hretry⟩, hlatest⟩ := rejected_retryAt hdecide
  obtain ⟨counter, hcounter, hend⟩ := (rejectedUntil_iff (articleLimit_pos hlast)).mp hretry
  refine ⟨last, hlast, counter, hcounter, hend, fun input hinput state hstate => ?_⟩
  rw [hend]
  exact hlatest input hinput _
    ((rejectedUntil_iff (articleLimit_pos hinput)).mpr ⟨state, hstate, rfl⟩)

/-- What refuses later, before any call was computed for the later bucket, is a counter of now. -/
theorem refused_before
    (hcalls : ∀ call ∈ calls, sinceShanghaiOffset ≤ call.computed ∧ call.computed ≤ t)
    {u : Instant} (htu : t ≤ u)
    (h : RefusedAt (articlePolicy archive) ((rateMachine (articlePolicy archive)).run ∅ calls) u) :
    ∃ input ∈ (articlePolicy archive).inputs .article t, ∃ state,
      RefusedBy (articleStates (articlePolicy archive)
        ((rateMachine (articlePolicy archive)).run ∅ calls)) t input state ∧ u < state.expiresAt ∧
      ∃ final ∈ (articlePolicy archive).inputs .article u,
        final.scope = input.scope ∧ final.bucketKey = input.bucketKey := by
  obtain ⟨final, hfinal, until', huntil⟩ := refusedAt_iff.mp h
  obtain ⟨of⟩ := articleScope archive hfinal
  obtain ⟨state, hstate, -⟩ := (rejectedUntil_iff (articleLimit_pos hfinal)).mp huntil
  obtain ⟨hmem, hscope, hkey⟩ := findState_eq_some (noNul_stored _ calls) of.noNul hstate.found
  obtain ⟨call, hcall, horigin⟩ := stored_origin of calls state hmem hscope
  obtain ⟨hbucket, hfinalLimit⟩ := of.inputs _ final hfinal rfl
  -- the call was computed before `t` for the bucket of `u`, so the bucket of `t` is the same
  have hsame : of.key t = of.key u :=
    of.key_eq_of_le (hcalls call hcall).1 (hcalls call hcall).2 htu (by rw [← horigin, hkey, hbucket])
  obtain ⟨input, hinput, hinputScope⟩ := of.present t
  obtain ⟨hinputKey, hinputLimit⟩ := of.inputs t input hinput hinputScope
  have hinputBucket : input.bucketKey = final.bucketKey := by rw [hinputKey, hsame, hbucket]
  exact ⟨input, hinput, state, hstate.at hinputScope hinputBucket
    (hinputLimit.trans hfinalLimit.symm) (htu.trans_lt hstate.live), hstate.live, final, hfinal,
    hinputScope.symm, hinputBucket.symm⟩

/-- A counter whose bucket lasts until it expires refuses until then. -/
theorem refusedAt_of_lasts (ht : sinceShanghaiOffset ≤ t) {batches : Table RateLimitBatchRow}
    {input final : RateLimitInput} (hinput : input ∈ (articlePolicy archive).inputs .article t)
    {state : RateLimitState}
    (hstate : RefusedBy (articleStates (articlePolicy archive) batches) t input state)
    (hfinal : final ∈ (articlePolicy archive).inputs .article (state.expiresAt - 1))
    (hscope : final.scope = input.scope) (hkey : final.bucketKey = input.bucketKey)
    {u : Instant} (htu : t ≤ u) (hu : u < state.expiresAt) :
    RefusedAt (articlePolicy archive) batches u := by
  obtain ⟨of⟩ := articleScope archive hinput
  obtain ⟨hinputKey, hinputLimit⟩ := of.inputs t input hinput rfl
  have hbucket : of.key t = of.key (state.expiresAt - 1) := by
    rw [← hinputKey, ← hkey, (of.inputs _ final hfinal hscope).1]
  have hsame : of.key u = of.key (state.expiresAt - 1) :=
    of.key_eq_of_le ht htu (Int.le_sub_one_of_lt hu) hbucket
  obtain ⟨later, hmem, hlaterScope⟩ := of.present u
  obtain ⟨hlaterKey, hlaterLimit⟩ := of.inputs u later hmem hlaterScope
  have hrefused := hstate.at hlaterScope (by rw [hlaterKey, hsame, ← hbucket, hinputKey])
    (hlaterLimit.trans hinputLimit.symm) hu
  exact refusedAt_iff.mpr ⟨later, hmem, _,
    (rejectedUntil_iff (articleLimit_pos hmem)).mpr ⟨state, hrefused, rfl⟩⟩

/--
**An article is held no longer than its limits require when a bucket that refuses it lasts until
the retry instant**, and then only.
-/
theorem heldNoLonger_iff
    (hcalls : ∀ call ∈ calls, sinceShanghaiOffset ≤ call.computed ∧ call.computed ≤ t)
    (ht : sinceShanghaiOffset ≤ t) {counts : Entries Nat} {retryAt : Instant}
    {batches' : Table RateLimitBatchRow}
    (h : consumeRateLimits t ((articlePolicy archive).inputs .article t)
      ((rateMachine (articlePolicy archive)).run ∅ calls) = .ok (.refused counts retryAt, batches')) :
    (∀ u, t < u → u < retryAt →
        RefusedAt (articlePolicy archive) ((rateMachine (articlePolicy archive)).run ∅ calls) u) ↔
      BucketLasts (articlePolicy archive)
        (articleStates (articlePolicy archive) ((rateMachine (articlePolicy archive)).run ∅ calls))
        t := by
  obtain ⟨last, hlast, counter, hcounter, hend, hmost⟩ := refused_last h
  rw [← hend]
  constructor
  · intro hheld
    by_cases hone : counter.expiresAt - 1 = t
    · exact ⟨last, hlast, counter, hcounter, hmost, last, by rw [hone]; exact hlast, rfl, rfl⟩
    · have hbefore : t ≤ counter.expiresAt - 1 := Int.le_sub_one_of_lt hcounter.live
      -- what refuses in the last millisecond is a counter of the bucket of `t`
      obtain ⟨input, hinput, state, hrefused, hlater, final, hfinal, hsame⟩ :=
        refused_before hcalls hbefore
          (hheld _ (lt_of_le_of_ne hbefore (Ne.symm hone)) (sub_one_lt _))
      have hlast : state.expiresAt = counter.expiresAt :=
        le_antisymm (hmost input hinput state hrefused) (Int.sub_one_lt_iff.mp hlater)
      refine ⟨input, hinput, state, hrefused, ?_, final, ?_, hsame⟩
      · rw [hlast]
        exact hmost
      · rw [hlast]
        exact hfinal
  · rintro ⟨input, hinput, state, hstate, hothers, final, hfinal, hscope, hkey⟩ u htu hu
    -- the bucket is still that of `t` at `u`, so the same counter refuses there
    exact refusedAt_of_lasts ht hinput hstate hfinal hscope hkey htu.le
      (hu.trans_le (hothers last hlast counter hcounter))

end Held

/-! ### One article a day -/

namespace HeldPastMidnight

def archive : ArticleArchive := ⟨1, 60, 3600, by decide, by decide, by decide⟩

/-- The article of the day, at ten in the morning. -/
def calls : List RateCall := [⟨midnight - 50400000, midnight - 50400000⟩]

def batches : Table RateLimitBatchRow := (rateMachine (articlePolicy archive)).run ∅ calls

/-- At three in the afternoon the next article is deferred until ten in the next morning. -/
theorem refused_afternoon :
    consumeRateLimits (midnight - 32400000)
        ((articlePolicy archive).inputs .article (midnight - 32400000)) batches =
      .ok (.refused [("article:daily", 1), ("article:window", 0)] (midnight + 36000000), batches) :=
  consumeRateLimits_refused.mpr ⟨rfl, articleStates (articlePolicy archive) batches, by decide +kernel⟩

theorem heldNoLonger_iff_afternoon :
    (∀ u, midnight - 32400000 < u → u < midnight + 36000000 →
        RefusedAt (articlePolicy archive) batches u) ↔
      BucketLasts (articlePolicy archive) (articleStates (articlePolicy archive) batches)
        (midnight - 32400000) :=
  heldNoLonger_iff (by decide) (by decide) refused_afternoon

/-- The article is held at midnight, when the bucket of the new day is empty. -/
theorem held_past_midnight :
    consumeRateLimits (midnight - 32400000)
        ((articlePolicy archive).inputs .article (midnight - 32400000)) batches =
      .ok (.refused [("article:daily", 1), ("article:window", 0)] (midnight + 36000000), batches) ∧
      ¬ ∀ u, midnight - 32400000 < u → u < midnight + 36000000 →
        RefusedAt (articlePolicy archive) batches u := by
  refine ⟨refused_afternoon, fun hheld => ?_⟩
  have hopen : ∀ input ∈ (articlePolicy archive).inputs .article midnight,
      rejectedUntil input (findState (articleStates (articlePolicy archive) batches) input)
        midnight = none := by
    decide +kernel
  obtain ⟨input, hinput, until', huntil⟩ := refusedAt_iff.mp (hheld midnight (by decide) (by decide))
  rw [hopen input hinput] at huntil
  cases huntil

end HeldPastMidnight

end InboxServer
