import InboxServer.Infra.Machine
import InboxServer.Worker.RateLimits

/-!
# Article limits over whole runs

All counters of a batch live in one row, which each allowed call replaces by the states of its own
buckets. A counter is kept as long as the buckets move forward only and none is used after the
expiry of its state.

* `limits_hold` — in runs whose calls find the counter of their bucket, or open a newer bucket, no
  bucket is used more often than its limit allows
* `late_call_exceeds` — a call that was computed before midnight and comes after the first call of
  the next day finds no counter
-/

namespace InboxServer

open Infra Postgres

/-! ## Runs -/

/-- A call for an article: when its inputs were computed, and when it executes. -/
structure RateCall where
  computed : Instant
  now : Instant
  deriving DecidableEq

def RateCall.inputs (policy : RatePolicy) (call : RateCall) : List RateLimitInput :=
  policy.inputs .article call.computed

/-- Calls of `consumeRateLimits` with the inputs of articles, one transaction each. -/
def rateMachine (policy : RatePolicy) :
    Machine (Table RateLimitBatchRow) RateCall (Except ErrorText RateLimitBatchReply) where
  step batches call :=
    match consumeRateLimits call.now (call.inputs policy) batches with
    | .ok (reply, batches') => (batches', .ok reply)
    | .error text => (batches, .error text)

/-- The call is answered that it may go on. -/
def isAllowed : Except ErrorText RateLimitBatchReply → Bool
  | .ok reply => reply.isAllowed
  | .error _ => false

/-- The call uses the bucket. -/
def RateCall.carries (policy : RatePolicy) (scope bucketKey : String) (call : RateCall) : Bool :=
  (call.inputs policy).any fun input => input.scope = scope && input.bucketKey = bucketKey

/-- How many of the calls use the bucket and are allowed. -/
def allowedCalls (policy : RatePolicy) (scope bucketKey : String) :
    Table RateLimitBatchRow → List RateCall → Nat
  | _, [] => 0
  | batches, call :: calls =>
    (call.carries policy scope bucketKey &&
      isAllowed ((rateMachine policy).reply batches call)).toNat +
        allowedCalls policy scope bucketKey ((rateMachine policy).next batches call) calls

/-- The last call counts if it is allowed. -/
theorem allowedCalls_snoc {policy : RatePolicy} {scope bucketKey : String}
    (batches : Table RateLimitBatchRow) (calls : List RateCall) (call : RateCall) :
    allowedCalls policy scope bucketKey batches (calls ++ [call]) =
      allowedCalls policy scope bucketKey batches calls +
        (call.carries policy scope bucketKey && isAllowed
          ((rateMachine policy).reply ((rateMachine policy).run batches calls) call)).toNat := by
  induction calls generalizing batches with
  | nil => simp [allowedCalls]
  | cons first calls ih =>
    rw [List.cons_append, allowedCalls, allowedCalls, ih, Machine.run_cons, Nat.add_assoc]

/-- No bucket that a call carries is used more often than its limit allows. -/
def WithinLimits (policy : RatePolicy) (calls : List RateCall) : Prop :=
  ∀ call ∈ calls, ∀ input ∈ call.inputs policy,
    allowedCalls policy input.scope input.bucketKey ∅ calls ≤ input.limit

/-- The clock does not go back, and inputs are at most a minute old when they are used. -/
def Timely (calls : List RateCall) : Prop :=
  calls.Pairwise (fun a b => a.now ≤ b.now) ∧
    ∀ call ∈ calls, call.computed ≤ call.now ∧ call.now ≤ call.computed + 60000

/-- A policy as a channel configuration may give it. -/
structure RatePolicy.Configured (policy : RatePolicy) : Prop where
  dailyLimit_pos : ∀ limit, policy.dailyLimit = some limit → 0 < limit
  windowSeconds_ge : 60 ≤ policy.windowSeconds

/-! ## What a call finds -/

/-- The states of the batch with the given scope. -/
def storedStates (scope : String) (batches : Table RateLimitBatchRow) : List RateLimitState :=
  ((batches.lookup RateLimitBatchRow.scope scope).map RateLimitBatchRow.state).getD []

/--
Each bucket of the call is one whose unexpired state is stored, or a newer one than the stored
bucket of its scope, which is that of an earlier instant.
-/
def KeepsCount (policy : RatePolicy) (batches : Table RateLimitBatchRow) (call : RateCall) : Prop :=
  sinceShanghaiOffset ≤ call.computed ∧
    ∀ input ∈ call.inputs policy, ∀ state ∈ storedStates (batchScope (call.inputs policy)) batches,
      state.scope = input.scope →
        (state.bucketKey = input.bucketKey ∧ call.now < state.expiresAt) ∨
        (state.bucketKey ≠ input.bucketKey ∧ ∃ t, sinceShanghaiOffset ≤ t ∧ t ≤ call.computed ∧
          ∃ earlier ∈ policy.inputs .article t,
            earlier.scope = input.scope ∧ earlier.bucketKey = state.bucketKey)

/-- The outcomes of a batch of limits. -/
inductive BatchOutcome (now : Instant) (inputs : List RateLimitInput)
    (batches : Table RateLimitBatchRow) :
    Table RateLimitBatchRow × Except ErrorText RateLimitBatchReply → Prop where
  | refused {reply} (h : isAllowed reply = false) : BatchOutcome now inputs batches (batches, reply)
  | empty (h : inputs = []) : BatchOutcome now inputs batches (batches, .ok (.allowed []))
  | allowed {batches' counts}
      (room : ∀ input ∈ inputs, rejectedUntil input
        (findState (storedStates (batchScope inputs) batches) input) now = none)
      (stored : storedStates (batchScope inputs) batches' = inputs.map fun input =>
        nextState input (findState (storedStates (batchScope inputs) batches) input) now) :
      BatchOutcome now inputs batches (batches', .ok (.allowed counts))

/-- A batch that is allowed has room for each of its inputs. -/
theorem decideRateLimitBatch_allowed {inputs : List RateLimitInput} {states : List RateLimitState}
    {now : Instant} {counts : Entries Nat} {nextStates : List RateLimitState}
    (h : decideRateLimitBatch inputs states now = .allowed counts nextStates) :
    (∀ input ∈ inputs, rejectedUntil input (findState states input) now = none) ∧
      nextStates = inputs.map fun input => nextState input (findState states input) now := by
  unfold decideRateLimitBatch at h
  dsimp only at h
  split at h
  · cases h
  · next hnone =>
    obtain ⟨-, rfl⟩ := RateLimitBatchDecision.allowed.inj h
    refine ⟨fun input hinput => ?_, rfl⟩
    have hempty := List.max?_eq_none_iff.mp hnone
    exact List.filterMap_eq_nil_iff.mp hempty input hinput

/-- A call is refused, or writes the states that it decides. -/
theorem rateMachine_outcome (policy : RatePolicy) (batches : Table RateLimitBatchRow)
    (call : RateCall) :
    BatchOutcome call.now (call.inputs policy) batches ((rateMachine policy).step batches call) := by
  show BatchOutcome call.now (call.inputs policy) batches
    (match consumeRateLimits call.now (call.inputs policy) batches with
      | .ok (reply, batches') => (batches', .ok reply)
      | .error text => (batches, .error text))
  unfold consumeRateLimits
  generalize call.inputs policy = inputs
  by_cases hempty : inputs.isEmpty = true
  · rw [if_pos hempty]
    exact .empty (List.isEmpty_iff.mp hempty)
  · rw [if_neg hempty]
    dsimp only
    cases hdecide : decideRateLimitBatch inputs
        (((batches.lookup RateLimitBatchRow.scope (batchScope inputs)).map
          RateLimitBatchRow.state).getD []) call.now with
    | rejected counts nextStates retryAt => exact .refused rfl
    | allowed counts nextStates =>
      obtain ⟨hroom, hnext⟩ := decideRateLimitBatch_allowed hdecide
      dsimp only
      cases hrow : batches.lookup RateLimitBatchRow.scope (batchScope inputs) with
      | some row =>
        refine .allowed hroom ?_
        have hkeeps : ∀ r : RateLimitBatchRow,
            (r.setState nextStates call.now).scope = r.scope := fun _ => rfl
        rw [storedStates, Table.lookup_update_key hkeeps, if_pos rfl, hrow]
        exact hnext
      | none =>
        dsimp only
        cases hins : batches.insert?
            { scope := batchScope inputs, state := nextStates, version := 1, updatedAt := call.now }
          with
        | none => exact .refused rfl
        | some batches' =>
          refine .allowed hroom ?_
          rw [storedStates, Table.lookup_insert? RateLimitBatchRow.isKey_scope hins, if_pos rfl]
          exact hnext

/-! ## The scopes of a policy -/

/-- One of the limits of a policy: its buckets are numbered in the order of time. -/
structure ScopeOf (policy : RatePolicy) (scope : String) where
  limit : Nat
  key : Instant → String
  number : Instant → Int
  limit_pos : 0 < limit
  noNul : '\u0000' ∉ scope.toList
  mono : ∀ s t, s ≤ t → number s ≤ number t
  key_eq_iff : ∀ s t, sinceShanghaiOffset ≤ s → sinceShanghaiOffset ≤ t →
    (key s = key t ↔ number s = number t)
  inputs : ∀ t, ∀ input ∈ policy.inputs .article t, input.scope = scope →
    input.bucketKey = key t ∧ input.limit = limit
  present : ∀ t, ∃ input ∈ policy.inputs .article t, input.scope = scope

/-- The inputs of an article are of its day and of its window. -/
theorem mem_inputs {policy : RatePolicy} {t : Instant} {input : RateLimitInput} :
    input ∈ policy.inputs .article t ↔
      (∃ limit, policy.dailyLimit = some limit ∧
        input = ⟨shanghaiDate t, limit, "article:daily", 86400⟩) ∨
      (0 < policy.windowCount ∧ input = ⟨toString (windowNumber policy.windowSeconds t),
        policy.windowCount, "article:window", policy.windowSeconds⟩) := by
  rw [RatePolicy.inputs, List.mem_append, Option.mem_toList]
  refine or_congr ?_ ?_
  · rw [Option.map_eq_some_iff]
    exact exists_congr fun limit => and_congr_right fun _ => eq_comm
  · by_cases h : policy.windowCount > 0
    · rw [if_pos h, List.mem_singleton]
      exact ⟨fun heq => ⟨h, heq⟩, fun hand => hand.2⟩
    · rw [if_neg h]
      exact ⟨fun hmem => absurd hmem List.not_mem_nil, fun hand => absurd hand.1 h⟩

def dailyScopeOf {policy : RatePolicy} {limit : Nat} (hpos : 0 < limit)
    (h : policy.dailyLimit = some limit) : ScopeOf policy "article:daily" where
  limit
  key := shanghaiDate
  number := shanghaiDay
  limit_pos := hpos
  noNul := by decide
  mono _ _ := shanghaiDay_mono
  key_eq_iff s t hs ht := ⟨shanghaiDate_inj hs ht, fun hday => by rw [shanghaiDate, shanghaiDate, hday]⟩
  inputs t input hinput hscope := by
    rcases mem_inputs.mp hinput with ⟨other, hlimit, rfl⟩ | ⟨-, rfl⟩
    · exact ⟨rfl, Option.some.inj (hlimit.symm.trans h)⟩
    · exact absurd hscope (show "article:window" ≠ "article:daily" by decide)
  present t := ⟨_, mem_inputs.mpr (Or.inl ⟨limit, h, rfl⟩), rfl⟩

def windowScopeOf {policy : RatePolicy} (hpos : 0 < policy.windowCount)
    (hseconds : 0 < policy.windowSeconds) : ScopeOf policy "article:window" where
  limit := policy.windowCount
  key t := toString (windowNumber policy.windowSeconds t)
  number := windowNumber policy.windowSeconds
  limit_pos := hpos
  noNul := by decide
  mono _ _ := windowNumber_mono hseconds
  key_eq_iff s t hs ht := by
    have hnonneg : ∀ u : Instant, sinceShanghaiOffset ≤ u →
        0 ≤ windowNumber policy.windowSeconds u :=
      fun u hu => windowNumber_nonneg _ (le_trans (by decide) hu)
    exact ⟨toString_int_inj (hnonneg s hs) (hnonneg t ht), fun h => by rw [h]⟩
  inputs t input hinput hscope := by
    rcases mem_inputs.mp hinput with ⟨other, -, rfl⟩ | ⟨-, rfl⟩
    · exact absurd hscope (show "article:daily" ≠ "article:window" by decide)
    · exact ⟨rfl, rfl⟩
  present t := ⟨_, mem_inputs.mpr (Or.inr ⟨hpos, rfl⟩), rfl⟩

/-- Every input belongs to one of the limits. -/
theorem exists_scopeOf {policy : RatePolicy} (hpolicy : policy.Configured) {t : Instant}
    {input : RateLimitInput} (h : input ∈ policy.inputs .article t) :
    Nonempty (ScopeOf policy input.scope) := by
  rcases mem_inputs.mp h with ⟨limit, hlimit, rfl⟩ | ⟨hpos, rfl⟩
  · exact ⟨dailyScopeOf (hpolicy.dailyLimit_pos limit hlimit) hlimit⟩
  · have hseconds : 60 ≤ policy.windowSeconds := hpolicy.windowSeconds_ge
    exact ⟨windowScopeOf hpos (by omega)⟩

/-- All calls have the same scopes, so their states are in one row. -/
theorem batchScope_inputs (policy : RatePolicy) (s t : Instant) :
    batchScope (policy.inputs .article s) = batchScope (policy.inputs .article t) := by
  have hscopes : (policy.inputs .article s).map RateLimitInput.scope =
      (policy.inputs .article t).map RateLimitInput.scope := by
    unfold RatePolicy.inputs
    cases policy.dailyLimit <;> by_cases h : policy.windowCount > 0 <;> simp [h]
  rw [batchScope, batchScope, hscopes]

/-! ## Counters -/

theorem findState_eq_some {states : List RateLimitState} {input : RateLimitInput}
    {state : RateLimitState} (hnul : ∀ s ∈ states, '\u0000' ∉ s.scope.toList)
    (hinput : '\u0000' ∉ input.scope.toList) (h : findState states input = some state) :
    state ∈ states ∧ state.scope = input.scope ∧ state.bucketKey = input.bucketKey := by
  have hmem : state ∈ states := List.mem_reverse.mp (List.mem_of_find?_eq_some h)
  have hkey := List.find?_some h
  exact ⟨hmem, joinNul_inj (hnul state hmem) hinput (of_decide_eq_true hkey)⟩

theorem findState_eq_none {states : List RateLimitState} {input : RateLimitInput}
    (h : findState states input = none) {state : RateLimitState} (hmem : state ∈ states)
    (hscope : state.scope = input.scope) : state.bucketKey ≠ input.bucketKey := by
  intro hkey
  have hnot := List.find?_eq_none.mp h state (List.mem_reverse.mpr hmem)
  exact hnot (by rw [hscope, hkey]; simp)

/-- What the stored counters of a scope say about the calls so far. -/
structure CountsKept (policy : RatePolicy) {scope : String} (of : ScopeOf policy scope)
    (calls : List RateCall) : Prop where
  stored : ∀ state ∈ storedStates (batchScope (policy.inputs .article 0))
      ((rateMachine policy).run ∅ calls), state.scope = scope →
    ∃ t, sinceShanghaiOffset ≤ t ∧ state.bucketKey = of.key t ∧
      state.count = allowedCalls policy scope (of.key t) ∅ calls ∧
      ∀ later, sinceShanghaiOffset ≤ later → of.number t < of.number later →
        allowedCalls policy scope (of.key later) ∅ calls = 0
  unused : (∀ state ∈ storedStates (batchScope (policy.inputs .article 0))
      ((rateMachine policy).run ∅ calls), state.scope ≠ scope) →
    ∀ t, allowedCalls policy scope (of.key t) ∅ calls = 0
  limit : ∀ t, sinceShanghaiOffset ≤ t →
    allowedCalls policy scope (of.key t) ∅ calls ≤ of.limit

/-- No stored scope has a NUL. -/
theorem noNul_stored (policy : RatePolicy) (calls : List RateCall) :
    ∀ state ∈ storedStates (batchScope (policy.inputs .article 0))
      ((rateMachine policy).run ∅ calls), '\u0000' ∉ state.scope.toList := by
  induction calls using List.reverseRecOn with
  | nil => exact fun state h => absurd h List.not_mem_nil
  | append_singleton calls call ih =>
    rw [Machine.run_snoc]
    have houtcome := rateMachine_outcome policy ((rateMachine policy).run ∅ calls) call
    unfold Machine.next
    cases hstep : (rateMachine policy).step ((rateMachine policy).run ∅ calls) call with
    | mk after reply =>
      rw [hstep] at houtcome
      cases houtcome with
      | refused _ => exact ih
      | empty _ => exact ih
      | allowed room stored =>
        rw [RateCall.inputs, batchScope_inputs policy call.computed 0] at stored
        intro state hstate
        rw [stored] at hstate
        obtain ⟨input, hinput, rfl⟩ := List.mem_map.mp hstate
        rcases mem_inputs.mp hinput with ⟨limit, -, rfl⟩ | ⟨-, rfl⟩
        · exact (by decide : '\u0000' ∉ "article:daily".toList)
        · exact (by decide : '\u0000' ∉ "article:window".toList)

namespace CountsKept

variable {policy : RatePolicy} {scope : String} {of : ScopeOf policy scope}
  {calls : List RateCall} {call : RateCall}

/-- A call uses the bucket of its own instant, in each scope. -/
theorem carries_iff (of : ScopeOf policy scope) (call : RateCall) (bucketKey : String) :
    call.carries policy scope bucketKey = true ↔ of.key call.computed = bucketKey := by
  unfold RateCall.carries RateCall.inputs
  rw [List.any_eq_true]
  constructor
  · rintro ⟨input, hinput, hboth⟩
    simp only [Bool.and_eq_true, decide_eq_true_eq] at hboth
    rw [← (of.inputs _ input hinput hboth.1).1, hboth.2]
  · rintro rfl
    obtain ⟨input, hinput, hscope⟩ := of.present call.computed
    exact ⟨input, hinput, by simp [hscope, (of.inputs _ input hinput hscope).1]⟩

/-- A call that is not allowed, and leaves the table, counts for nothing. -/
theorem refused (h : CountsKept policy of calls)
    (hnext : (rateMachine policy).next ((rateMachine policy).run ∅ calls) call =
      (rateMachine policy).run ∅ calls)
    (hreply : isAllowed ((rateMachine policy).reply ((rateMachine policy).run ∅ calls) call) =
      false) : CountsKept policy of (calls ++ [call]) := by
  have hcount : ∀ bucketKey, allowedCalls policy scope bucketKey ∅ (calls ++ [call]) =
      allowedCalls policy scope bucketKey ∅ calls := by
    intro bucketKey
    rw [allowedCalls_snoc, hreply, Bool.and_false]
    rfl
  constructor
  · rw [Machine.run_snoc, hnext]
    simp only [hcount]
    exact h.stored
  · rw [Machine.run_snoc, hnext]
    simp only [hcount]
    exact h.unused
  · simp only [hcount]
    exact h.limit

/-- What an allowed call finds of its bucket, in a scope. -/
theorem found (h : CountsKept policy of calls)
    (hkeeps : KeepsCount policy ((rateMachine policy).run ∅ calls) call) {input : RateLimitInput}
    (hinput : input ∈ call.inputs policy) (hscope : input.scope = scope) :
    let states := storedStates (batchScope (policy.inputs .article 0))
      ((rateMachine policy).run ∅ calls)
    liveCount (findState states input) call.now =
        allowedCalls policy scope (of.key call.computed) ∅ calls ∧
      ∀ later, sinceShanghaiOffset ≤ later → of.number call.computed < of.number later →
        allowedCalls policy scope (of.key later) ∅ calls = 0 := by
  intro states
  have hkey : input.bucketKey = of.key call.computed := (of.inputs _ input hinput hscope).1
  have hcond := hkeeps.2 input hinput
  rw [show batchScope (call.inputs policy) = _ from batchScope_inputs policy call.computed 0] at hcond
  cases hfind : findState states input with
  | some state =>
    obtain ⟨hmem, hs, hk⟩ := findState_eq_some (noNul_stored policy calls)
      (by rw [hscope]; exact of.noNul) hfind
    obtain ⟨t, ht, htkey, hcount, hlater⟩ := h.stored state hmem (hs.trans hscope)
    have hsame : of.key t = of.key call.computed := by rw [← htkey, hk, hkey]
    have hnumber := (of.key_eq_iff _ _ ht hkeeps.1).mp hsame
    have hlive : call.now < state.expiresAt := by
      rcases hcond state hmem hs with ⟨-, hlive⟩ | ⟨hne, -⟩
      · exact hlive
      · exact absurd hk hne
    refine ⟨?_, by rw [← hnumber]; exact hlater⟩
    rw [← hsame, ← hcount]
    exact if_pos hlive
  | none =>
    by_cases hany : ∃ state ∈ states, state.scope = scope
    · obtain ⟨state, hmem, hs⟩ := hany
      obtain ⟨t, ht, htkey, -, hlater⟩ := h.stored state hmem hs
      have hother : state.bucketKey ≠ input.bucketKey :=
        findState_eq_none hfind hmem (hs.trans hscope.symm)
      have hnewer : of.number t < of.number call.computed := by
        rcases hcond state hmem (hs.trans hscope.symm) with ⟨hk, -⟩ | ⟨-, t', ht', hle, e, he, hes, hek⟩
        · exact absurd hk hother
        · have hkeys : of.key t' = of.key t := by
            rw [← (of.inputs _ e he (hes.trans hscope)).1, hek, htkey]
          have hnumbers := (of.key_eq_iff _ _ ht' ht).mp hkeys
          refine lt_of_le_of_ne (hnumbers ▸ of.mono _ _ hle) fun heq => hother ?_
          rw [htkey, hkey, (of.key_eq_iff _ _ ht hkeeps.1).mpr heq]
      refine ⟨(hlater _ hkeeps.1 hnewer).symm, fun later hl hlt => ?_⟩
      exact hlater later hl (hnewer.trans hlt)
    · have hzero := h.unused fun state hmem hs => hany ⟨state, hmem, hs⟩
      exact ⟨(hzero _).symm, fun later _ _ => hzero later⟩

/-- An allowed call counts for its own bucket, and its counter is stored. -/
theorem allowed (h : CountsKept policy of calls)
    (hkeeps : KeepsCount policy ((rateMachine policy).run ∅ calls) call)
    (hreply : isAllowed ((rateMachine policy).reply ((rateMachine policy).run ∅ calls) call) = true)
    (hroom : ∀ input ∈ call.inputs policy, rejectedUntil input
      (findState (storedStates (batchScope (policy.inputs .article 0))
        ((rateMachine policy).run ∅ calls)) input) call.now = none)
    (hstored : storedStates (batchScope (policy.inputs .article 0))
        ((rateMachine policy).next ((rateMachine policy).run ∅ calls) call) =
      (call.inputs policy).map fun input => nextState input
        (findState (storedStates (batchScope (policy.inputs .article 0))
          ((rateMachine policy).run ∅ calls)) input) call.now) :
    CountsKept policy of (calls ++ [call]) := by
  have hself : allowedCalls policy scope (of.key call.computed) ∅ (calls ++ [call]) =
      allowedCalls policy scope (of.key call.computed) ∅ calls + 1 := by
    rw [allowedCalls_snoc, hreply, (carries_iff of call _).mpr rfl]
    rfl
  have hother : ∀ bucketKey, of.key call.computed ≠ bucketKey →
      allowedCalls policy scope bucketKey ∅ (calls ++ [call]) =
        allowedCalls policy scope bucketKey ∅ calls := by
    intro bucketKey hne
    have hnot : call.carries policy scope bucketKey = false :=
      Bool.eq_false_iff.mpr fun hc => hne ((carries_iff of call _).mp hc)
    rw [allowedCalls_snoc, hnot, Bool.false_and]
    rfl
  obtain ⟨input, hinput, hscope⟩ := of.present call.computed
  obtain ⟨hcount, hlater⟩ := h.found hkeeps hinput hscope
  refine ⟨?_, ?_, ?_⟩
  · rw [Machine.run_snoc, hstored]
    intro state hstate hs
    obtain ⟨used, hused, rfl⟩ := List.mem_map.mp hstate
    obtain ⟨hcount', -⟩ := h.found hkeeps hused hs
    refine ⟨call.computed, hkeeps.1, (of.inputs _ used hused hs).1, ?_, fun later hl hlt => ?_⟩
    · rw [hself, ← hcount']
      rfl
    · rw [hother _ fun heq => ?_]
      · exact hlater later hl hlt
      · rw [(of.key_eq_iff _ _ hkeeps.1 hl).mp heq] at hlt
        exact lt_irrefl _ hlt
  · intro hnone
    rw [Machine.run_snoc, hstored] at hnone
    exact absurd hscope (hnone _ (List.mem_map.mpr ⟨input, hinput, rfl⟩))
  · intro t ht
    by_cases heq : of.key call.computed = of.key t
    · rw [← heq, hself, ← hcount]
      -- The call was not refused, so its counter was below the limit.
      have hfree := hroom input hinput
      have hlimit : input.limit = of.limit := (of.inputs _ input hinput hscope).2
      cases hfind : findState (storedStates (batchScope (policy.inputs .article 0))
          ((rateMachine policy).run ∅ calls)) input with
      | none => exact of.limit_pos
      | some state =>
        rw [hfind] at hfree
        simp only [rejectedUntil] at hfree
        split at hfree
        · cases hfree
        · omega
    · rw [hother _ heq]
      exact h.limit t ht

end CountsKept

/-- While the calls meet the condition, the counts are those of the buckets. -/
theorem countsKept {policy : RatePolicy} {scope : String} (of : ScopeOf policy scope)
    {calls : List RateCall} (h : (rateMachine policy).Admits (KeepsCount policy) ∅ calls) :
    CountsKept policy of calls := by
  refine Machine.history_induction ?_ (fun calls call _ hkept hkeeps => ?_) h
  · exact ⟨fun state hs => absurd hs List.not_mem_nil, fun _ _ => rfl, fun _ _ => Nat.zero_le _⟩
  · have houtcome := rateMachine_outcome policy ((rateMachine policy).run ∅ calls) call
    cases hstep : (rateMachine policy).step ((rateMachine policy).run ∅ calls) call with
    | mk after reply =>
      have hnext : (rateMachine policy).next ((rateMachine policy).run ∅ calls) call = after := by
        rw [Machine.next, hstep]
      have hreply : (rateMachine policy).reply ((rateMachine policy).run ∅ calls) call = reply := by
        rw [Machine.reply, hstep]
      rw [hstep] at houtcome
      cases houtcome with
      | refused hnot => exact hkept.refused hnext (by rw [hreply]; exact hnot)
      | empty hempty =>
        obtain ⟨input, hinput, -⟩ := of.present call.computed
        rw [RateCall.inputs] at hempty
        rw [hempty] at hinput
        exact absurd hinput List.not_mem_nil
      | allowed room stored =>
        have hscope : batchScope (call.inputs policy) = batchScope (policy.inputs .article 0) :=
          batchScope_inputs policy call.computed 0
        rw [hscope] at room stored
        exact hkept.allowed hkeeps (by rw [hreply]; rfl) room (by rw [hnext]; exact stored)

/--
**Limits hold while the buckets move forward.** No daily date and no window is used more often than
the policy allows, in any run in which every call finds the unexpired counters of its buckets, or
opens newer buckets.
-/
theorem limits_hold (policy : RatePolicy) (hpolicy : policy.Configured) (calls : List RateCall)
    (h : (rateMachine policy).Admits (KeepsCount policy) ∅ calls) : WithinLimits policy calls := by
  intro call hcall input hinput
  obtain ⟨of⟩ := exists_scopeOf hpolicy hinput
  obtain ⟨pre, post, rfl⟩ := List.append_of_mem hcall
  have hsince : sinceShanghaiOffset ≤ call.computed := (h.at).1
  obtain ⟨hkey, hlimit⟩ := of.inputs _ input hinput rfl
  rw [hkey, hlimit]
  exact (countsKept of h).limit call.computed hsince

/-! ## One article a day -/

/-- One article a day, and sixty an hour. -/
def onePerDay : RatePolicy where
  dailyLimit := some 1
  windowCount := 60
  windowSeconds := 3600

theorem onePerDay_configured : onePerDay.Configured where
  dailyLimit_pos limit h := by
    rw [← Option.some.inj h]
    decide
  windowSeconds_ge := by decide

/-- Midnight of 2 March 2026 in Shanghai. -/
def midnight : Instant := 1772380800000

/-- The stored buckets are all those of one earlier instant, or those of the call. -/
theorem keepsCount_of (t : Instant) {policy : RatePolicy} {batches : Table RateLimitBatchRow}
    {call : RateCall} (ht : sinceShanghaiOffset ≤ t ∧ t ≤ call.computed)
    (h : ∀ input ∈ call.inputs policy,
      ∀ state ∈ storedStates (batchScope (call.inputs policy)) batches, state.scope = input.scope →
        (state.bucketKey = input.bucketKey ∧ call.now < state.expiresAt) ∨
        (state.bucketKey ≠ input.bucketKey ∧ ∃ earlier ∈ policy.inputs .article t,
          earlier.scope = input.scope ∧ earlier.bucketKey = state.bucketKey)) :
    KeepsCount policy batches call :=
  ⟨ht.1.trans ht.2, fun input hinput state hstate hscope =>
    (h input hinput state hstate hscope).imp_right fun hne => ⟨hne.1, t, ht.1, ht.2, hne.2⟩⟩

/-- Two calls on one day, the second of which is refused, and one on the next. -/
def twoDays : List RateCall :=
  [⟨midnight - 2000, midnight - 2000⟩, ⟨midnight - 1000, midnight - 1000⟩,
    ⟨midnight + 1000, midnight + 2000⟩]

theorem limits_hold_twoDays : WithinLimits onePerDay twoDays :=
  limits_hold onePerDay onePerDay_configured twoDays
    ⟨keepsCount_of (midnight - 2000) (by decide) (by decide +kernel),
      keepsCount_of (midnight - 2000) (by decide) (by decide +kernel),
      keepsCount_of (midnight - 2000) (by decide) (by decide +kernel), trivial⟩

/-- The second call opens the next day's bucket; the third was computed before midnight. -/
def lateCall : List RateCall :=
  [⟨midnight - 2000, midnight - 2000⟩, ⟨midnight + 1000, midnight + 1000⟩,
    ⟨midnight - 1000, midnight + 2000⟩]

theorem late_call_exceeds :
    ¬ ∀ calls, Timely calls → WithinLimits onePerDay calls := by
  intro h
  have hwithin := h lateCall ⟨by decide, by decide⟩ ⟨midnight - 2000, midnight - 2000⟩ (by decide)
    ⟨"2026-03-01", 1, "article:daily", 86400⟩ (by decide)
  exact absurd hwithin (by decide +kernel)

end InboxServer
