import InboxServer.Properties.RateLimits

/-!
# What a batch of limits decides

* `decidesExactly` — a batch is allowed when every live count is below its limit; it is then charged
  once to each limit, and else it is refused until the first instant at which it would be allowed
-/

namespace InboxServer

open Infra Postgres

/-! ## The stored state of an input -/

/-- The stored state with the keys of the input. -/
def storedState (states : List RateLimitState) (input : RateLimitInput) : Option RateLimitState :=
  states.find? fun state => state.scope = input.scope && state.bucketKey = input.bucketKey

/-- Each key stands once, and no scope holds the separator of the keys. -/
structure DistinctStates (states : List RateLimitState) : Prop where
  nodup : (states.map fun state => (state.scope, state.bucketKey)).Nodup
  noNul : ∀ state ∈ states, '\u0000' ∉ state.scope.toList

/-- One bucket for each scope, and positive limits. -/
structure DistinctInputs (inputs : List RateLimitInput) : Prop where
  nodup : (inputs.map RateLimitInput.scope).Nodup
  limit_pos : ∀ input ∈ inputs, 0 < input.limit
  noNul : ∀ input ∈ inputs, '\u0000' ∉ input.scope.toList

/-- The map of the states by their keys finds what the list has. -/
theorem findState_eq {states : List RateLimitState} (hstates : DistinctStates states)
    {input : RateLimitInput} (hinput : '\u0000' ∉ input.scope.toList) :
    findState states input = storedState states input := by
  have hkey : ∀ state ∈ states, (joinNul state.scope state.bucketKey =
      joinNul input.scope input.bucketKey ↔
        state.scope = input.scope ∧ state.bucketKey = input.bucketKey) := by
    intro state hstate
    constructor
    · exact joinNul_inj (hstates.noNul state hstate) hinput
    · rintro ⟨hscope, hbucket⟩
      rw [hscope, hbucket]
  have hunique : ∀ a ∈ states, ∀ b ∈ states, a.scope = b.scope → a.bucketKey = b.bucketKey →
      a = b := fun a ha b hb hscope hbucket =>
    List.inj_on_of_nodup_map hstates.nodup ha hb (Prod.ext hscope hbucket)
  cases hfound : findState states input with
  | none =>
    symm
    rw [storedState, List.find?_eq_none]
    intro state hstate hsame
    have hnone := List.find?_eq_none.mp hfound state (List.mem_reverse.mpr hstate)
    simp only [Bool.and_eq_true, decide_eq_true_eq] at hsame hnone
    exact hnone ((hkey state hstate).mpr hsame)
  | some state =>
    obtain ⟨hstate, hscope, hbucket⟩ := findState_eq_some hstates.noNul hinput hfound
    cases hstored : storedState states input with
    | none =>
      have hnone := List.find?_eq_none.mp hstored state hstate
      simp [hscope, hbucket] at hnone
    | some other =>
      have hother := List.find?_some hstored
      simp only [Bool.and_eq_true, decide_eq_true_eq] at hother
      rw [hunique state hstate other (List.mem_of_find?_eq_some hstored)
        (hscope.trans hother.1.symm) (hbucket.trans hother.2.symm)]

/-! ## One decision -/

def RateLimitBatchDecision.isAllowed : RateLimitBatchDecision → Bool
  | .allowed .. => true
  | .rejected .. => false

/-- The expiry of the counter that refuses an input: it is live, and it is full. -/
theorem rejectedUntil_eq_some {input : RateLimitInput} (hlimit : 0 < input.limit)
    {existing : Option RateLimitState} {now until' : Instant} :
    rejectedUntil input existing now = some until' ↔
      ∃ state, existing = some state ∧ now < state.expiresAt ∧ input.limit ≤ state.count ∧
        state.expiresAt = until' := by
  cases existing with
  | none => simp [rejectedUntil]
  | some state =>
    simp only [rejectedUntil, liveCount, Option.some.injEq, exists_eq_left']
    by_cases hlive : now < state.expiresAt
    · simp only [gt_iff_lt, hlive, if_true, ge_iff_le, true_and]
      by_cases hfull : input.limit ≤ state.count
      · simp [hfull]
      · simp [hfull]
    · have hzero : ¬ input.limit ≤ 0 := by omega
      simp [hlive, hzero]

theorem rejectedUntil_eq_none {input : RateLimitInput} (hlimit : 0 < input.limit)
    {existing : Option RateLimitState} {now : Instant} :
    rejectedUntil input existing now = none ↔ liveCount existing now < input.limit := by
  cases existing with
  | none => simp [rejectedUntil, liveCount, hlimit]
  | some state =>
    simp only [rejectedUntil]
    split
    · next hfull => simp [hfull]
    · next hroom => simp at hroom; simp [hroom]

theorem isAllowed_decide {inputs : List RateLimitInput} {states : List RateLimitState}
    {now : Instant} :
    (decideRateLimitBatch inputs states now).isAllowed = true ↔
      ∀ input ∈ inputs, rejectedUntil input (findState states input) now = none := by
  unfold decideRateLimitBatch
  dsimp only
  split
  · next retryAt hmax =>
    have hmem := List.max?_mem hmax
    obtain ⟨input, hinput, hretry⟩ := List.mem_filterMap.mp hmem
    simp only [RateLimitBatchDecision.isAllowed, Bool.false_eq_true, false_iff]
    intro hnone
    rw [hnone input hinput] at hretry
    cases hretry
  · next hnone =>
    have hempty := List.max?_eq_none_iff.mp hnone
    simpa [RateLimitBatchDecision.isAllowed] using List.filterMap_eq_nil_iff.mp hempty

theorem decide_rejected {inputs : List RateLimitInput} {states : List RateLimitState}
    {now : Instant} {input : RateLimitInput} (hinput : input ∈ inputs) {until' : Instant}
    (h : rejectedUntil input (findState states input) now = some until') :
    ∃ counts nextStates retryAt,
      decideRateLimitBatch inputs states now = .rejected counts nextStates retryAt := by
  cases hdecide : decideRateLimitBatch inputs states now with
  | allowed counts nextStates =>
    have hnone := (decideRateLimitBatch_allowed hdecide).1 input hinput
    rw [h] at hnone
    cases hnone
  | rejected counts nextStates retryAt => exact ⟨counts, nextStates, retryAt, rfl⟩

/-- A batch is refused until the last of the counters that refuse it expires. -/
theorem rejected_retryAt {inputs : List RateLimitInput} {states : List RateLimitState}
    {now : Instant} {counts : Entries Nat} {nextStates : List RateLimitState} {retryAt : Instant}
    (h : decideRateLimitBatch inputs states now = .rejected counts nextStates retryAt) :
    nextStates = states ∧
      (∃ input ∈ inputs, rejectedUntil input (findState states input) now = some retryAt) ∧
      ∀ input ∈ inputs, ∀ until', rejectedUntil input (findState states input) now = some until' →
        until' ≤ retryAt := by
  unfold decideRateLimitBatch at h
  dsimp only at h
  split at h
  · next latest hmax =>
    obtain ⟨-, rfl, rfl⟩ := RateLimitBatchDecision.rejected.inj h
    obtain ⟨hmem, hlatest⟩ := List.max?_eq_some_iff.mp hmax
    exact ⟨rfl, List.mem_filterMap.mp hmem, fun input hinput until' huntil =>
      hlatest _ (List.mem_filterMap.mpr ⟨input, hinput, huntil⟩)⟩
  · cases h

/-! ## The decision -/

/-- The state of an input that is charged once more. -/
def chargedState (states : List RateLimitState) (now : Instant) (input : RateLimitInput) :
    RateLimitState where
  bucketKey := input.bucketKey
  count := liveCount (storedState states input) now + 1
  expiresAt := ((storedState states input).filter fun state => now < state.expiresAt).elim
    (now + input.windowSeconds * 1000) RateLimitState.expiresAt
  scope := input.scope

/-- What is decided of a batch, and what that says. -/
structure DecidesExactly (inputs : List RateLimitInput) (states : List RateLimitState)
    (now : Instant) : Prop where
  allowed_iff : (decideRateLimitBatch inputs states now).isAllowed = true ↔
    ∀ input ∈ inputs, liveCount (storedState states input) now < input.limit
  charged : ∀ counts nextStates, decideRateLimitBatch inputs states now = .allowed counts nextStates →
    nextStates = inputs.map (chargedState states now)
  refused : ∀ counts nextStates retryAt,
    decideRateLimitBatch inputs states now = .rejected counts nextStates retryAt →
      nextStates = states ∧
        IsLeast {u | (decideRateLimitBatch inputs states u).isAllowed = true} retryAt

theorem nextState_eq {states : List RateLimitState} (hstates : DistinctStates states) {now : Instant}
    {input : RateLimitInput} (hinput : '\u0000' ∉ input.scope.toList) :
    nextState input (findState states input) now = chargedState states now input := by
  rw [findState_eq hstates hinput]
  unfold nextState chargedState
  cases storedState states input with
  | none => rfl
  | some state =>
    by_cases hlive : now < state.expiresAt
    · simp [Option.filter, hlive]
    · simp [Option.filter, hlive]

/-- A refused batch is refused until all that refuse it have expired, and no longer. -/
theorem isLeast_retryAt {inputs : List RateLimitInput} {states : List RateLimitState} {now : Instant}
    (hlimit : ∀ input ∈ inputs, 0 < input.limit) {counts : Entries Nat}
    {nextStates : List RateLimitState} {retryAt : Instant}
    (h : decideRateLimitBatch inputs states now = .rejected counts nextStates retryAt) :
    nextStates = states ∧
      IsLeast {u | (decideRateLimitBatch inputs states u).isAllowed = true} retryAt := by
  obtain ⟨hkept, ⟨last, hlast, hretry⟩, hlatest⟩ := rejected_retryAt h
  obtain ⟨state, hstate, hlive, hfull, hexpires⟩ :=
    (rejectedUntil_eq_some (hlimit last hlast)).mp hretry
  refine ⟨hkept, ?_, ?_⟩
  · -- whatever refuses the batch at its retry instant refused it before, and expires later
    rw [Set.mem_ofPred_eq, isAllowed_decide]
    intro input hinput
    by_contra hrefused
    obtain ⟨until', huntil⟩ := Option.ne_none_iff_exists'.mp hrefused
    obtain ⟨other, hother, hlater, hcount, hend⟩ :=
      (rejectedUntil_eq_some (hlimit input hinput)).mp huntil
    have hbefore : rejectedUntil input (findState states input) now = some until' :=
      (rejectedUntil_eq_some (hlimit input hinput)).mpr ⟨other, hother, by linarith, hcount, hend⟩
    have hle := hlatest input hinput until' hbefore
    linarith
  · intro u hu
    rw [Set.mem_ofPred_eq, isAllowed_decide] at hu
    by_contra hearly
    have hrefused : rejectedUntil last (findState states last) u = some retryAt :=
      (rejectedUntil_eq_some (hlimit last hlast)).mpr ⟨state, hstate, by linarith, hfull, hexpires⟩
    rw [hu last hlast] at hrefused
    cases hrefused

/--
**A batch is decided exactly**: by the live counts, with one charge to each limit, and until the
first instant at which it would be allowed.
-/
theorem decidesExactly {inputs : List RateLimitInput} (hinputs : DistinctInputs inputs)
    {states : List RateLimitState} (hstates : DistinctStates states) (now : Instant) :
    DecidesExactly inputs states now where
  allowed_iff := by
    rw [isAllowed_decide]
    refine forall₂_congr fun input hinput => ?_
    rw [rejectedUntil_eq_none (hinputs.limit_pos input hinput),
      findState_eq hstates (hinputs.noNul input hinput)]
  charged := by
    intro counts nextStates h
    rw [(decideRateLimitBatch_allowed h).2]
    exact List.map_congr_left fun input hinput => nextState_eq hstates (hinputs.noNul input hinput)
  refused := fun counts nextStates retryAt h => isLeast_retryAt hinputs.limit_pos h

/-- Two limits, one of them full and one of them expired. -/
theorem decidesExactly_full :
    DecidesExactly [⟨"7", 1, "article:window", 60⟩, ⟨"d", 2, "article:daily", 86400⟩]
      [⟨"7", 1, 60000, "article:window"⟩, ⟨"d", 2, 1000, "article:daily"⟩] 5000 :=
  decidesExactly ⟨by decide, by decide, by decide⟩ ⟨by decide, by decide⟩ 5000

end InboxServer
