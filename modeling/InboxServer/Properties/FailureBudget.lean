import InboxServer.Properties.Envelopes

/-!
# The failure budget of a job

What a call of the PostgreSQL control plane does to the row of one key, and what follows for the
failure counter, the deferral and the dead letter over all runs.

* `controlRow` — a call keeps the row, claims it, finishes it or opens it again
* `failure_budget` — `failure_attempts` counts the failed finishes since the last published replay,
  and the job dies exactly of a permanent or of the third one
-/

namespace InboxServer

open Infra

variable (env : Env) (key : String)

/-! ## What a call does to a key -/

/-- The result that the call applies to the row of the key, which was not terminal. -/
def appliedFinish (db : Db) : Instant × ControlCall → Option JobResult
  | (now, .job (.finish jobId result)) =>
    match jobRow key db with
    | some row =>
      if row.jobId = jobId ∧ row.status.isTerminal = false ∧
          (Backend.postgres.finishJob now jobId result db).2.isOk = true then some result
      else none
    | none => none
  | (_, .job (.claim ..)) | (_, .effect _) | (_, .replay ..) => none

/-- The result is a failed one. -/
def JobResult.isFailed : JobResult → Bool
  | .failed .. => true
  | .done _ | .deferred .. | .uncertain _ => false

/-- The call publishes the job of the key, with an idempotency key that was not used before. -/
def publishesJob (db : Db) : Instant × ControlCall → Bool
  | (now, .replay jobId input) =>
    (jobRow key db).any (fun row => row.jobId = jobId) &&
      (db.replayOperations.lookup ReplayOperationRow.idempotencyKey input.idempotencyKey).isNone &&
      match (transact db (Postgres.replayDeadLetter env now jobId input db)).2 with
      | .ok reply => reply.published
      | .error _ => false
  | (_, .job _) | (_, .effect _) => false

/-- The call claims the key. -/
def claimsJob (db : Db) : Instant × ControlCall → Bool
  | (now, .job (.claim iv body)) =>
    (parseQueueJob env.zod body).any (fun job => job.dedupeKey = key) &&
      (JobReply.claim (Backend.postgres.claimJob env now iv body db).2).isClaimed
  | (_, .job (.finish ..)) | (_, .effect _) | (_, .replay ..) => false

/-- What a call of the control plane does to the row of the key. -/
inductive ControlRow (db : Db) (input : Instant × ControlCall) : Prop where
  | kept (rows : jobRow key ((controlMachine env).next db input) = jobRow key db)
      (finish : appliedFinish key db input = none) (publish : publishesJob env key db input = false)
      (claim : claimsJob env key db input = false)
  | claimed (job : QueueJob)
      (claimable : ∀ row, jobRow key db = some row → row.Claimable input.1)
      (rows : jobRow key ((controlMachine env).next db input) =
        some (JobRow.afterClaim job input.1 (jobRow key db)))
      (finish : appliedFinish key db input = none) (publish : publishesJob env key db input = false)
      (claim : claimsJob env key db input = true)
  | finished (row : JobRow) (result : JobResult) (before : jobRow key db = some row)
      (live : row.status.isTerminal = false)
      (applied : Finished input.1 row.jobId result row db ((controlMachine env).next db input))
      (rows : jobRow key ((controlMachine env).next db input) = some (row.finish result input.1))
      (finish : appliedFinish key db input = some result)
      (publish : publishesJob env key db input = false)
      (claim : claimsJob env key db input = false)
  | reopened (row : JobRow) (before : jobRow key db = some row) (dead : row.status = .dead)
      (rows : jobRow key ((controlMachine env).next db input) = some (row.reopen input.1))
      (finish : appliedFinish key db input = none) (publish : publishesJob env key db input = true)
      (claim : claimsJob env key db input = false)

variable {env key} {db : Db} {now : Instant}

/-- What a claim does to the row of a key. -/
theorem controlRow_claim (iv : Bytes) (body : Json) :
    ControlRow env key db (now, .job (.claim iv body)) := by
  have hrows := (claimJob_outcome .postgres env now iv body db).rows
  have hnext : (controlMachine env).next db (now, .job (.claim iv body)) =
      (Backend.postgres.claimJob env now iv body db).1 := rfl
  have hclaims : claimsJob env key db (now, .job (.claim iv body)) =
      ((parseQueueJob env.zod body).any (fun job => job.dedupeKey = key) &&
        (JobReply.claim (Backend.postgres.claimJob env now iv body db).2).isClaimed) := rfl
  cases hresult : Backend.postgres.claimJob env now iv body db with
  | mk db' reply =>
    rw [hresult] at hrows hnext hclaims
    cases hrows with
    | refused hnot =>
      refine .kept (by rw [hnext]) rfl rfl ?_
      rw [hclaims]
      cases reply with
      | error text => exact Bool.and_false _
      | ok r => rw [show JobReply.isClaimed (.claim (.ok r)) = false from hnot r rfl, Bool.and_false]
    | @claimed job db' n parse claimable rows letters =>
      by_cases hkey : job.dedupeKey = key
      · subst hkey
        exact .claimed job claimable (by rw [hnext, rows, if_pos rfl]) rfl rfl
          (by rw [hclaims, parse]; simp [JobReply.isClaimed, ClaimJobReply.isClaimed])
      · exact .kept (by rw [hnext, rows, if_neg hkey]) rfl rfl
          (by rw [hclaims, parse]; simp [hkey])

/-- What a finish does to the row of a key. -/
theorem controlRow_finish (jobId : String) (result : JobResult) :
    ControlRow env key db (now, .job (.finish jobId result)) := by
  have hrows := (finishJob_outcome .postgres now jobId result db).rows
  have hnext : (controlMachine env).next db (now, .job (.finish jobId result)) =
      (Backend.postgres.finishJob now jobId result db).1 := rfl
  have hfinish : appliedFinish key db (now, .job (.finish jobId result)) =
      match jobRow key db with
      | some row =>
        if row.jobId = jobId ∧ row.status.isTerminal = false ∧
            (Backend.postgres.finishJob now jobId result db).2.isOk = true then some result
        else none
      | none => none := rfl
  cases houtcome : Backend.postgres.finishJob now jobId result db with
  | mk db' reply =>
    rw [houtcome] at hrows hnext hfinish
    cases hrows with
    | threw =>
      refine .kept (by rw [hnext]) ?_ rfl rfl
      rw [hfinish]
      cases jobRow key db with
      | none => rfl
      | some row => exact if_neg fun h => by cases h.2.2
    -- a late finish: the row it meets is terminal, so none is applied
    | @settled settled lookup id terminal =>
      refine .kept (by rw [hnext]) ?_ rfl rfl
      rw [hfinish]
      cases hrow : jobRow key db with
      | none => rfl
      | some row =>
        refine if_neg fun h => ?_
        have hkeys := jobRow_inj lookup hrow (id.trans h.1.symm)
        rw [hkeys, hrow] at lookup
        rw [Option.some.inj lookup, terminal] at h
        exact Bool.noConfusion h.2.1
    -- job ids are unique, so it is applied to this key or to another
    | @finished row db' settlement lookup id live finished rows hsettle =>
      by_cases hkey : row.dedupeKey = key
      · subst hkey
        refine .finished row result lookup live ?_ (by rw [hnext, rows, if_pos rfl]) ?_ rfl rfl
        · rw [hnext, id]; exact finished
        · rw [hfinish, lookup]
          exact if_pos ⟨id, live, rfl⟩
      · refine .kept (by rw [hnext, rows, if_neg hkey]) ?_ rfl rfl
        rw [hfinish]
        cases hrow : jobRow key db with
        | none => rfl
        | some other => exact if_neg fun h => hkey (jobRow_inj lookup hrow (id.trans h.1.symm))

/-- What a replay does to the row of a key. -/
theorem controlRow_replay (hinv : EnvelopeInv db) (jobId : String) (input : ReplayInput) :
    ControlRow env key db (now, .replay jobId input) := by
  have houtcome := replayDeadLetter_outcome env now jobId input db
  have hnext : (controlMachine env).next db (now, .replay jobId input) =
      (transact db (Postgres.replayDeadLetter env now jobId input db)).1 := rfl
  have hpublish : publishesJob env key db (now, .replay jobId input) =
      ((jobRow key db).any (fun row => row.jobId = jobId) &&
        (db.replayOperations.lookup ReplayOperationRow.idempotencyKey input.idempotencyKey).isNone &&
        match (transact db (Postgres.replayDeadLetter env now jobId input db)).2 with
        | .ok reply => reply.published
        | .error _ => false) := rfl
  cases hresult : transact db (Postgres.replayDeadLetter env now jobId input db) with
  | mk db' reply =>
    rw [hresult] at houtcome hnext hpublish
    cases houtcome with
    | unchanged unpublished =>
      refine .kept (by rw [hnext]) rfl ?_ rfl
      rw [hpublish]
      cases hop : db.replayOperations.lookup ReplayOperationRow.idempotencyKey
          input.idempotencyKey with
      | some operation => simp
      | none =>
        cases reply with
        | error text => exact Bool.and_false _
        | ok r => simp [unpublished hop r rfl]
    | @published db' job envelopeJobId published =>
      obtain ⟨row, hrow, hid, hs, hrows⟩ := published.rows hinv
      by_cases hkey : row.dedupeKey = key
      · subst hkey
        refine .reopened row hrow hs (by rw [hnext, hrows, if_pos rfl]) rfl ?_ rfl
        rw [hpublish, hrow, published.fresh]
        simp [hid, Postgres.publishedReply]
      · refine .kept (by rw [hnext, hrows, if_neg hkey]) rfl ?_ rfl
        rw [hpublish]
        cases hr : jobRow key db with
        | none => rfl
        | some other =>
          have hne : other.jobId ≠ jobId :=
            fun he => hkey (jobRow_inj hrow hr (hid.trans he.symm))
          simp [hne]

/-- An effect call leaves the jobs alone. -/
theorem controlRow_effect (call : EffectCall) : ControlRow env key db (now, .effect call) := by
  refine .kept ?_ rfl rfl rfl
  cases call with
  | claim effect =>
    obtain ⟨effects, heq, -⟩ := lookup_claimEffect .postgres now effect db
    show jobRow key (Backend.claimEffect now effect db .postgres).1 = _
    rw [heq]
    rfl
  | finish effectKey result => rfl

/-- **A call keeps the row of a key, claims it, finishes it, or opens it again.** -/
theorem controlRow (hinv : EnvelopeInv db) (input : Instant × ControlCall) :
    ControlRow env key db input := by
  obtain ⟨now, call⟩ := input
  cases call with
  | job call =>
    cases call with
    | claim iv body => exact controlRow_claim iv body
    | finish jobId result => exact controlRow_finish jobId result
  | effect call => exact controlRow_effect call
  | replay jobId replayInput => exact controlRow_replay hinv jobId replayInput

/-! ## Runs -/

variable (env key)

/-- The row of the key after the calls, from empty tables. -/
def rowAfter (calls : List (Instant × ControlCall)) : Option JobRow :=
  jobRow key ((controlMachine env).run ∅ calls)

/-- The failed finishes that were applied to the row since it was published last, or created. -/
def failures (calls : List (Instant × ControlCall)) : Nat :=
  (calls.foldl (fun s input => ((controlMachine env).next s.1 input,
    if publishesJob env key s.1 input then 0
    else s.2 + ((appliedFinish key s.1 input).any JobResult.isFailed).toNat)) ((∅ : Db), 0)).2

/-- The job is dead. -/
def IsDead (db : Db) : Prop := ∃ row, jobRow key db = some row ∧ row.status = .dead

/-- The call is a failed finish that leaves no other try: permanent, or the third in a row. -/
def Kills (calls : List (Instant × ControlCall)) (input : Instant × ControlCall) : Prop :=
  ∃ errorClass errorMessage payloadDigest,
    appliedFinish key ((controlMachine env).run ∅ calls) input =
      some (.failed errorClass errorMessage payloadDigest) ∧
    (errorClass.getD .permanent = .permanent ∨ failures env key calls + 1 = 3)

/-- The call is a claim, of whichever job, or the deferral of a job. -/
def ClaimsOrDefers : ControlCall → Prop
  | .job (.claim ..) | .job (.finish _ (.deferred ..)) => True
  | .job (.finish ..) | .effect _ | .replay .. => False

/-- What the failure counter of a job means, over all runs from empty tables. -/
structure FailureBudget : Prop where
  counts : ∀ calls row, rowAfter env key calls = some row →
    row.failureAttempts = failures env key calls ∧ row.failureAttempts ≤ 3
  /-- Claims and deferrals change no counter, and write no letter. -/
  unchanged : ∀ calls input row, ClaimsOrDefers input.2 → rowAfter env key calls = some row →
    (∃ row', rowAfter env key (calls ++ [input]) = some row' ∧
      row'.failureAttempts = row.failureAttempts) ∧
    ((controlMachine env).run ∅ (calls ++ [input])).deadLetters =
      ((controlMachine env).run ∅ calls).deadLetters
  dies : ∀ calls input, ¬ IsDead key ((controlMachine env).run ∅ calls) →
    (IsDead key ((controlMachine env).run ∅ (calls ++ [input])) ↔ Kills env key calls input)
  /-- The letter is there in the state in which the job is dead for the first time. -/
  letter : ∀ calls input, Kills env key calls input →
    ∃ row letter, rowAfter env key (calls ++ [input]) = some row ∧
      ((controlMachine env).run ∅ (calls ++ [input])).deadLetters.lookup DeadLetterRow.jobId
        row.jobId = some letter ∧
      letter.attempts = failures env key (calls ++ [input])
  /-- A job that is done or uncertain stays as it is. -/
  settled : ∀ calls, (controlMachine env).Latches (jobRow key)
    (fun row => ∃ r, row = some r ∧ (r.status = .done ∨ r.status = .uncertain)) ∅ calls
  /-- A dead job stays as it is, until a replay publishes it. -/
  dead : ∀ calls input row, rowAfter env key calls = some row → row.status = .dead →
    publishesJob env key ((controlMachine env).run ∅ calls) input = false →
    rowAfter env key (calls ++ [input]) = some row
  /-- Until it is finished again, a deferred job is claimed at its date or later. -/
  deferral : ∀ pre deferral reason date mid claim,
    appliedFinish key ((controlMachine env).run ∅ pre) deferral =
      some (.deferred reason (some date)) →
    (∀ before c after, mid = before ++ c :: after →
      appliedFinish key ((controlMachine env).run ∅ (pre ++ deferral :: before)) c = none) →
    claimsJob env key ((controlMachine env).run ∅ (pre ++ deferral :: mid)) claim = true →
    date ≤ claim.1

/-! ## The counter -/

variable {env key}

/-- The failures are counted from the last replay that was published. -/
theorem failures_snoc (calls : List (Instant × ControlCall)) (input : Instant × ControlCall) :
    failures env key (calls ++ [input]) =
      if publishesJob env key ((controlMachine env).run ∅ calls) input then 0
      else failures env key calls +
        ((appliedFinish key ((controlMachine env).run ∅ calls) input).any
          JobResult.isFailed).toNat := by
  have hstate : ∀ (as : List (Instant × ControlCall)) (s : Db × Nat),
      (as.foldl (fun s input => ((controlMachine env).next s.1 input,
        if publishesJob env key s.1 input then 0
        else s.2 + ((appliedFinish key s.1 input).any JobResult.isFailed).toNat)) s).1 =
      (controlMachine env).run s.1 as := by
    intro as
    induction as with
    | nil => exact fun _ => rfl
    | cons a as ih => exact fun s => ih _
  simp only [failures, List.foldl_append, List.foldl_cons, List.foldl_nil, hstate]

theorem rowAfter_snoc (calls : List (Instant × ControlCall)) (input : Instant × ControlCall) :
    rowAfter env key (calls ++ [input]) =
      jobRow key ((controlMachine env).next ((controlMachine env).run ∅ calls) input) := by
  rw [rowAfter, Machine.run_snoc]

theorem controlRow_run (calls : List (Instant × ControlCall)) (input : Instant × ControlCall) :
    ControlRow env key ((controlMachine env).run ∅ calls) input :=
  controlRow (envelopeInv_run env calls) input

theorem JobRow.finish_failureAttempts (result : JobResult) (now : Instant) (row : JobRow) :
    (row.finish result now).failureAttempts = row.failureAttempts + result.isFailed.toNat := by
  cases result with
  | failed errorClass errorMessage payloadDigest =>
    unfold JobRow.finish
    dsimp only
    split <;> rfl
  | _ => rfl

/-- A job that lives on after a finish has failed at most twice. -/
theorem JobRow.finish_live {result : JobResult} {now : Instant} {row : JobRow}
    (hle : row.failureAttempts ≤ 2) (h : (row.finish result now).status.isTerminal = false) :
    (row.finish result now).failureAttempts ≤ 2 := by
  cases result with
  | failed errorClass errorMessage payloadDigest =>
    unfold JobRow.finish at h ⊢
    dsimp only at h ⊢
    split at h
    · cases h
    · next hdies =>
      rw [if_neg hdies]
      simp only [JobRow.dies, Bool.or_eq_true, decide_eq_true_eq, not_or, not_le] at hdies
      show row.failureAttempts + 1 ≤ 2
      omega
  | deferred reason retryAt => exact hle
  | done summary => cases h
  | uncertain reason => cases h

theorem JobRow.afterClaim_failureAttempts (job : QueueJob) (now : Instant) (row : Option JobRow) :
    (JobRow.afterClaim job now row).failureAttempts = (row.map JobRow.failureAttempts).getD 0 := by
  cases row <;> rfl

/-- The counter of a row, and its bound while the job lives. -/
structure CounterInv (env : Env) (key : String) (calls : List (Instant × ControlCall)) : Prop where
  absent : rowAfter env key calls = none → failures env key calls = 0
  counts : ∀ row, rowAfter env key calls = some row →
    row.failureAttempts = failures env key calls ∧ row.failureAttempts ≤ 3
  live : ∀ row, rowAfter env key calls = some row → row.status.isTerminal = false →
    row.failureAttempts ≤ 2

/-- Where the row after the calls is known, so is what there is to show of it. -/
theorem CounterInv.of_row {calls : List (Instant × ControlCall)} {row : JobRow}
    (hrow : rowAfter env key calls = some row) (hcounts : row.failureAttempts = failures env key calls)
    (hle : row.failureAttempts ≤ 3)
    (hlive : row.status.isTerminal = false → row.failureAttempts ≤ 2) :
    CounterInv env key calls where
  absent h := by rw [hrow] at h; cases h
  counts r hr := by
    rw [← Option.some.inj (hrow.symm.trans hr)]
    exact ⟨hcounts, hle⟩
  live r hr := by
    rw [← Option.some.inj (hrow.symm.trans hr)]
    exact hlive

/-- Each call moves the counter of the row as it moves the count of failures. -/
theorem counterInv_snoc {calls : List (Instant × ControlCall)} (h : CounterInv env key calls)
    (input : Instant × ControlCall) : CounterInv env key (calls ++ [input]) := by
  have hsnoc : rowAfter env key (calls ++ [input]) = _ := rowAfter_snoc calls input
  cases (controlRow_run calls input : ControlRow env key _ input) with
  | kept rows finish publish claim =>
    have hcount : failures env key (calls ++ [input]) = failures env key calls := by
      simp [failures_snoc, publish, finish]
    rw [rows] at hsnoc
    exact ⟨by rw [hsnoc, hcount]; exact h.absent, by rw [hsnoc, hcount]; exact h.counts,
      by rw [hsnoc]; exact h.live⟩
  | claimed job claimable rows finish publish claim =>
    have hcount : failures env key (calls ++ [input]) = failures env key calls := by
      simp [failures_snoc, publish, finish]
    have hattempts := JobRow.afterClaim_failureAttempts job input.1 (rowAfter env key calls)
    have hle : (JobRow.afterClaim job input.1 (rowAfter env key calls)).failureAttempts ≤ 2 := by
      rw [hattempts]
      cases hrow : rowAfter env key calls with
      | none => exact Nat.zero_le _
      | some row => exact h.live row hrow (claimable row hrow).live
    refine .of_row (hsnoc.trans rows) ?_ (hle.trans (by decide)) fun _ => hle
    rw [hcount]
    refine hattempts.trans ?_
    cases hrow : rowAfter env key calls with
    | none => exact (h.absent hrow).symm
    | some row => exact (h.counts row hrow).1
  | finished row result before live applied rows finish publish claim =>
    have hcount : failures env key (calls ++ [input]) =
        failures env key calls + result.isFailed.toNat := by
      simp [failures_snoc, publish, finish]
    have hle := h.live row before live
    have hattempts := JobRow.finish_failureAttempts result input.1 row
    refine .of_row (hsnoc.trans rows) ?_ ?_ (JobRow.finish_live hle)
    · rw [hattempts, hcount, (h.counts row before).1]
    · rw [hattempts]
      cases result.isFailed
      · exact hle.trans (by decide)
      · exact Nat.succ_le_succ hle
  | reopened row before dead rows finish publish claim =>
    have hcount : failures env key (calls ++ [input]) = 0 := by
      simp [failures_snoc, publish]
    exact .of_row (hsnoc.trans rows) hcount.symm (Nat.zero_le _) fun _ => Nat.zero_le _

/-- The counter of a row is the count of its failures. -/
theorem counterInv (env : Env) (key : String) (calls : List (Instant × ControlCall)) :
    CounterInv env key calls := by
  induction calls using List.reverseRecOn with
  | nil =>
    have hnone : rowAfter env key [] = none := rfl
    refine ⟨fun _ => rfl, fun row h => ?_, fun row h => ?_⟩
    · rw [hnone] at h
      cases h
    · rw [hnone] at h
      cases h
  | append_singleton calls input ih => exact counterInv_snoc ih input

/-! ## The parts of the budget -/

/-- Whether a finish kills is decided by its class and the counter. -/
theorem dies_iff {calls : List (Instant × ControlCall)} {row : JobRow}
    (hrow : rowAfter env key calls = some row) (hlive : row.status.isTerminal = false)
    (errorClass : Option JobErrorClass) :
    row.dies errorClass = true ↔
      errorClass.getD .permanent = .permanent ∨ failures env key calls + 1 = 3 := by
  have hcount := ((counterInv env key calls).counts row hrow).1
  have hle := (counterInv env key calls).live row hrow hlive
  simp only [JobRow.dies, Bool.or_eq_true, decide_eq_true_eq]
  constructor
  · rintro (h | h)
    · exact Or.inl h
    · exact Or.inr (by omega)
  · rintro (h | h)
    · exact Or.inl h
    · exact Or.inr (by omega)

/-- Only a failure kills a job, and only one that was one too many. -/
theorem JobRow.finish_dead_iff (result : JobResult) (now : Instant) (row : JobRow) :
    (row.finish result now).status = .dead ↔
      ∃ errorClass errorMessage payloadDigest,
        result = .failed errorClass errorMessage payloadDigest ∧ row.dies errorClass = true := by
  cases result with
  | failed errorClass errorMessage payloadDigest =>
    unfold JobRow.finish
    dsimp only
    constructor
    · intro h
      split at h
      · next hdies => exact ⟨errorClass, errorMessage, payloadDigest, rfl, hdies⟩
      · cases h
    · rintro ⟨_, _, _, heq, hdies⟩
      obtain ⟨rfl, rfl, rfl⟩ := JobResult.failed.inj heq
      rw [if_pos hdies]
      rfl
  | deferred reason retryAt => simp [JobRow.finish, JobRow.defer]
  | done summary => simp [JobRow.finish, JobRow.setDone]
  | uncertain reason => simp [JobRow.finish, JobRow.setUncertain]

theorem isDead_iff {db : Db} {row : JobRow} (h : jobRow key db = some row) :
    IsDead key db ↔ row.status = .dead := by
  unfold IsDead
  simp [h]

/-- A job dies at the call that kills it. -/
theorem dies_step {calls : List (Instant × ControlCall)} {input : Instant × ControlCall}
    (h : ¬ IsDead key ((controlMachine env).run ∅ calls)) :
    IsDead key ((controlMachine env).run ∅ (calls ++ [input])) ↔ Kills env key calls input := by
  rw [Machine.run_snoc]
  cases (controlRow_run calls input : ControlRow env key _ input) with
  | kept rows finish publish claim =>
    have hkills : ¬ Kills env key calls input := by
      rintro ⟨_, _, _, hfinish, -⟩
      rw [finish] at hfinish
      cases hfinish
    have hdead : ¬ IsDead key ((controlMachine env).next ((controlMachine env).run ∅ calls) input) := by
      unfold IsDead at h ⊢
      rwa [rows]
    exact iff_of_false hdead hkills
  | claimed job claimable rows finish publish claim =>
    have hkills : ¬ Kills env key calls input := by
      rintro ⟨_, _, _, hfinish, -⟩
      rw [finish] at hfinish
      cases hfinish
    refine iff_of_false (fun hdead => ?_) hkills
    have hstatus := (isDead_iff rows).mp hdead
    cases hrow : jobRow key ((controlMachine env).run ∅ calls) with
    | none => rw [hrow] at hstatus; cases hstatus
    | some row => rw [hrow] at hstatus; cases hstatus
  | finished row result before live applied rows finish publish claim =>
    rw [isDead_iff rows, JobRow.finish_dead_iff]
    unfold Kills
    rw [finish]
    constructor
    · rintro ⟨errorClass, errorMessage, payloadDigest, rfl, hdies⟩
      exact ⟨_, _, _, rfl, (dies_iff before live errorClass).mp hdies⟩
    · rintro ⟨errorClass, errorMessage, payloadDigest, hresult, hor⟩
      exact ⟨_, _, _, Option.some.inj hresult, (dies_iff before live errorClass).mpr hor⟩
  | reopened row before dead rows finish publish claim => exact absurd ⟨row, before, dead⟩ h

theorem deadLetter_conflict (a b : DeadLetterRow) :
    Constrained.conflict a b = true ↔ a.jobId = b.jobId := by
  simp [Constrained.conflict]

/-- The letter of a job that dies is found under its job id, with all that is written again. -/
theorem Finished.letter_written {now : Instant} {jobId : String} {result : JobResult} {row : JobRow}
    {db db' : Db} (h : Finished now jobId result row db db')
    (hdead : (row.finish result now).status = .dead) :
    ∃ new letter, writesLetter now jobId result row db.envelopes = some new ∧
      db'.deadLetters.lookup DeadLetterRow.jobId jobId = some letter ∧
      new.rewrite letter = letter := by
  obtain ⟨new, hnew⟩ := Option.isSome_iff_exists.mp (h.letter hdead)
  have hletters : db'.deadLetters = db.deadLetters.upsert new new.rewrite := by
    rw [h.deadLetters, hnew]
  have hkeeps : ∀ letter, (new.rewrite letter).jobId = letter.jobId := fun _ => rfl
  have hlookup := Table.lookup_upsert (t := db.deadLetters) (r := new) deadLetter_conflict hkeeps
  rw [(writesLetter_envelope hnew).1, ← hletters] at hlookup
  refine ⟨new, _, hnew, hlookup, ?_⟩
  cases db.deadLetters.lookup DeadLetterRow.jobId jobId with
  | none => rfl
  | some old => rfl

/-- A finish leaves the letters of other jobs. -/
theorem Finished.letter_other {now : Instant} {jobId id : String} {result : JobResult} {row : JobRow}
    {db db' : Db} (h : Finished now jobId result row db db') (hne : id ≠ jobId) :
    db'.deadLetters.lookup DeadLetterRow.jobId id = db.deadLetters.lookup DeadLetterRow.jobId id := by
  rw [h.deadLetters]
  cases hw : writesLetter now jobId result row db.envelopes with
  | none => rfl
  | some new =>
    have hkeeps : ∀ letter, (new.rewrite letter).jobId = letter.jobId := fun _ => rfl
    refine Table.lookup_upsert_of_ne deadLetter_conflict hkeeps ?_
    rw [(writesLetter_envelope hw).1]
    exact hne.symm

/-- A job that dies has its letter, with the attempts and the class of the failure. -/
theorem Finished.lookup_letter {now : Instant} {result : JobResult} {row : JobRow} {db db' : Db}
    (h : Finished now row.jobId result row db db')
    (hdead : (row.finish result now).status = .dead) :
    ∃ letter, db'.deadLetters.lookup DeadLetterRow.jobId row.jobId = some letter ∧
      letter.attempts = row.failureAttempts + 1 := by
  obtain ⟨new, letter, hnew, hletter, hrewrite⟩ := h.letter_written hdead
  obtain ⟨errorClass, errorMessage, payloadDigest, rfl, hdies⟩ :=
    (JobRow.finish_dead_iff result now row).mp hdead
  simp only [writesLetter, if_pos hdies] at hnew
  obtain ⟨digest, -, rfl⟩ := Option.map_eq_some_iff.mp hnew
  exact ⟨letter, hletter, (congrArg DeadLetterRow.attempts hrewrite).symm⟩

/-- The call that kills a job leaves its letter. -/
theorem letter_step {calls : List (Instant × ControlCall)} {input : Instant × ControlCall}
    (h : Kills env key calls input) :
    ∃ row letter, rowAfter env key (calls ++ [input]) = some row ∧
      ((controlMachine env).run ∅ (calls ++ [input])).deadLetters.lookup DeadLetterRow.jobId
        row.jobId = some letter ∧
      letter.attempts = failures env key (calls ++ [input]) := by
  obtain ⟨errorClass, errorMessage, payloadDigest, happlied, hor⟩ := h
  cases (controlRow_run calls input : ControlRow env key _ input) with
  | kept rows finish publish claim =>
    rw [finish] at happlied
    cases happlied
  | claimed job claimable rows finish publish claim =>
    rw [finish] at happlied
    cases happlied
  | reopened row before dead rows finish publish claim =>
    rw [finish] at happlied
    cases happlied
  | finished row result before live applied rows finish publish claim =>
    obtain rfl : result = .failed errorClass errorMessage payloadDigest :=
      Option.some.inj (finish.symm.trans happlied)
    have hdead := (JobRow.finish_dead_iff (.failed errorClass errorMessage payloadDigest) input.1
      row).mpr ⟨_, _, _, rfl, (dies_iff before live errorClass).mpr hor⟩
    obtain ⟨letter, hletter, hattempts⟩ := applied.lookup_letter hdead
    refine ⟨_, letter, (rowAfter_snoc calls input).trans rows, ?_, ?_⟩
    · rw [Machine.run_snoc, JobRow.finish_jobId]
      exact hletter
    · rw [hattempts, ((counterInv env key calls).counts row before).1, failures_snoc, publish,
        finish]
      rfl

/-- A row that is terminal moves only when a replay publishes it. -/
theorem terminal_next {calls : List (Instant × ControlCall)} {input : Instant × ControlCall}
    {row : JobRow} (hrow : rowAfter env key calls = some row)
    (hterminal : row.status.isTerminal = true)
    (hpublish : row.status = .dead →
      publishesJob env key ((controlMachine env).run ∅ calls) input = false) :
    rowAfter env key (calls ++ [input]) = some row := by
  rw [rowAfter_snoc]
  cases (controlRow_run calls input : ControlRow env key _ input) with
  | kept rows finish publish claim => rw [rows]; exact hrow
  | claimed job claimable rows finish publish claim =>
    have hlive := (claimable row hrow).live
    rw [hterminal] at hlive
    cases hlive
  | finished r result before live applied rows finish publish claim =>
    rw [Option.some.inj (before.symm.trans hrow), hterminal] at live
    cases live
  | reopened r before dead rows finish publish claim =>
    rw [Option.some.inj (before.symm.trans hrow)] at dead
    rw [hpublish dead] at publish
    cases publish

/-! ### Deferrals -/

/-- A job that was deferred until `date`: it still is, or it was claimed at that date or later. -/
def HeldUntil (date : Instant) (row : JobRow) : Prop :=
  (row.status = .deferred ∧ row.deferredUntil = some (some date)) ∨
    (row.status = .processing ∧ date ≤ row.updatedAt)

/-- A job that is put off is not claimed before its date. -/
theorem HeldUntil.claimable {date now : Instant} {row : JobRow} (h : HeldUntil date row)
    (hclaim : row.Claimable now) : date ≤ now := by
  rcases h with ⟨hs, hdate⟩ | ⟨hs, hdate⟩
  · have hdue := hclaim.due hs
    rw [JobRow.deferredAfter, hdate] at hdue
    exact not_lt.mp (of_decide_eq_false hdue)
  · have hstale := hclaim.free hs
    simp only [isStale, decide_eq_true_eq] at hstale
    linarith

/-- Only a finish changes until when a job is put off. -/
theorem HeldUntil.next {date : Instant} {calls : List (Instant × ControlCall)}
    {input : Instant × ControlCall} {row : JobRow} (hrow : rowAfter env key calls = some row)
    (h : HeldUntil date row)
    (hfinish : appliedFinish key ((controlMachine env).run ∅ calls) input = none) :
    ∃ row', rowAfter env key (calls ++ [input]) = some row' ∧ HeldUntil date row' := by
  have hsnoc : rowAfter env key (calls ++ [input]) = _ := rowAfter_snoc calls input
  cases (controlRow_run calls input : ControlRow env key _ input) with
  | kept rows finish publish claim => exact ⟨row, (hsnoc.trans rows).trans hrow, h⟩
  | claimed job claimable rows finish publish claim =>
    have hdate := h.claimable (claimable row hrow)
    refine ⟨_, hsnoc.trans rows, Or.inr ?_⟩
    rw [show jobRow key ((controlMachine env).run ∅ calls) = some row from hrow]
    exact ⟨rfl, hdate⟩
  | finished r result before live applied rows finish publish claim =>
    rw [hfinish] at finish
    cases finish
  | reopened r before dead rows finish publish claim =>
    have hsame : r = row := Option.some.inj (before.symm.trans hrow)
    rw [hsame] at dead
    rcases h with ⟨hs, -⟩ | ⟨hs, -⟩
    · rw [dead] at hs
      cases hs
    · rw [dead] at hs
      cases hs

/-- A deferred job stays put off until its next finish. -/
theorem deferral_held {pre mid : List (Instant × ControlCall)} {deferral : Instant × ControlCall}
    {reason : DeferReason} {date : Instant}
    (hdefer : appliedFinish key ((controlMachine env).run ∅ pre) deferral =
      some (.deferred reason (some date)))
    (hmid : ∀ before c after, mid = before ++ c :: after →
      appliedFinish key ((controlMachine env).run ∅ (pre ++ deferral :: before)) c = none) :
    ∃ row, rowAfter env key (pre ++ deferral :: mid) = some row ∧ HeldUntil date row := by
  induction mid using List.reverseRecOn with
  | nil =>
    cases (controlRow_run pre deferral : ControlRow env key _ deferral) with
    | kept rows finish publish claim => rw [hdefer] at finish; cases finish
    | claimed job claimable rows finish publish claim => rw [hdefer] at finish; cases finish
    | reopened r before dead rows finish publish claim => rw [hdefer] at finish; cases finish
    | finished row result before live applied rows finish publish claim =>
      obtain rfl : result = .deferred reason (some date) :=
        Option.some.inj (finish.symm.trans hdefer)
      exact ⟨_, (rowAfter_snoc pre deferral).trans rows, Or.inl ⟨rfl, rfl⟩⟩
  | append_singleton mid c ih =>
    obtain ⟨row, hrow, hheld⟩ := ih fun before c' after heq =>
      hmid before c' (after ++ [c]) (by rw [heq]; simp)
    have hnext := hheld.next hrow (hmid mid c [] rfl)
    rwa [List.append_assoc, List.cons_append] at hnext

/-- A claim of it comes at its date or later. -/
theorem claimsJob_held {calls : List (Instant × ControlCall)} {claim : Instant × ControlCall}
    {date : Instant} {row : JobRow} (hrow : rowAfter env key calls = some row)
    (h : HeldUntil date row)
    (hclaim : claimsJob env key ((controlMachine env).run ∅ calls) claim = true) :
    date ≤ claim.1 := by
  cases (controlRow_run calls claim : ControlRow env key _ claim) with
  | claimed job claimable rows finish publish hclaims => exact h.claimable (claimable row hrow)
  | kept rows finish publish hclaims => rw [hclaims] at hclaim; cases hclaim
  | finished r result before live applied rows finish publish hclaims =>
    rw [hclaims] at hclaim
    cases hclaim
  | reopened r before dead rows finish publish hclaims =>
    rw [hclaims] at hclaim
    cases hclaim

/-! ### Claims and deferrals -/

/-- A claim writes no letter. -/
theorem claim_deadLetters {db : Db} (now : Instant) (iv : Bytes) (body : Json) :
    ((controlMachine env).next db (now, .job (.claim iv body))).deadLetters = db.deadLetters := by
  show (Backend.postgres.claimJob env now iv body db).1.deadLetters = _
  have hrows := (claimJob_outcome .postgres env now iv body db).rows
  cases hresult : Backend.postgres.claimJob env now iv body db with
  | mk db' reply =>
    rw [hresult] at hrows
    cases hrows with
    | refused _ => rfl
    | claimed parse claimable rows letters => exact letters

theorem deferral_deadLetters {db : Db} (now : Instant) (jobId : String) (reason : DeferReason)
    (retryAt : DateText) :
    ((controlMachine env).next db (now, .job (.finish jobId (.deferred reason retryAt)))).deadLetters
      = db.deadLetters := by
  show (Backend.postgres.finishJob now jobId (.deferred reason retryAt) db).1.deadLetters = _
  have hrows := (finishJob_outcome .postgres now jobId (.deferred reason retryAt) db).rows
  cases hresult : Backend.postgres.finishJob now jobId (.deferred reason retryAt) db with
  | mk db' reply =>
    rw [hresult] at hrows
    cases hrows with
    | threw => rfl
    | settled _ _ _ => rfl
    | finished lookup id live finished rows hsettle => exact finished.deadLetters

/-- A claim or a deferral counts no failure, and writes no letter. -/
theorem unchanged_step {calls : List (Instant × ControlCall)} {input : Instant × ControlCall}
    {row : JobRow} (hcall : ClaimsOrDefers input.2) (hrow : rowAfter env key calls = some row) :
    (∃ row', rowAfter env key (calls ++ [input]) = some row' ∧
      row'.failureAttempts = row.failureAttempts) ∧
    ((controlMachine env).run ∅ (calls ++ [input])).deadLetters =
      ((controlMachine env).run ∅ calls).deadLetters := by
  have hsnoc : rowAfter env key (calls ++ [input]) = _ := rowAfter_snoc calls input
  constructor
  · cases (controlRow_run calls input : ControlRow env key _ input) with
    | kept rows finish publish claim => exact ⟨row, (hsnoc.trans rows).trans hrow, rfl⟩
    | claimed job claimable rows finish publish claim =>
      refine ⟨_, hsnoc.trans rows, ?_⟩
      rw [JobRow.afterClaim_failureAttempts,
        show jobRow key ((controlMachine env).run ∅ calls) = some row from hrow]
      rfl
    | finished r result before live applied rows finish publish claim =>
      obtain rfl : r = row := Option.some.inj (before.symm.trans hrow)
      refine ⟨_, hsnoc.trans rows, ?_⟩
      rw [JobRow.finish_failureAttempts]
      -- A finish that is applied is the finish that the call makes, so a deferral.
      obtain ⟨now, call⟩ := input
      match call, hcall with
      | .job (.claim ..), _ => cases finish
      | .job (.finish jobId (.deferred reason retryAt)), _ =>
        rw [appliedFinish, before] at finish
        dsimp only at finish
        split_ifs at finish
        rw [← Option.some.inj finish]
        rfl
    | reopened r before dead rows finish publish claim =>
      obtain ⟨now, call⟩ := input
      match call, hcall with
      | .job (.claim ..), _ => cases publish
      | .job (.finish jobId (.deferred reason retryAt)), _ => cases publish
  · rw [Machine.run_snoc]
    obtain ⟨now, call⟩ := input
    match call, hcall with
    | .job (.claim iv body), _ => exact claim_deadLetters now iv body
    | .job (.finish jobId (.deferred reason retryAt)), _ =>
      exact deferral_deadLetters now jobId reason retryAt

/-- **The failure budget counts exactly the real failures**, of every key and over all runs. -/
theorem failure_budget (env : Env) (key : String) : FailureBudget env key where
  counts calls := (counterInv env key calls).counts
  unchanged _ _ _ := unchanged_step
  dies _ _ := dies_step
  letter _ _ := letter_step
  settled calls := by
    rw [Machine.latches_iff]
    rintro pre input post - ⟨row, hrow, hstatus⟩
    have hterminal : row.status.isTerminal = true := by
      rcases hstatus with hs | hs <;> rw [hs] <;> rfl
    rw [hrow, ← rowAfter_snoc]
    refine terminal_next hrow hterminal fun hdead => ?_
    rw [hdead] at hstatus
    rcases hstatus with hs | hs <;> cases hs
  dead _ _ row hrow hs hpublish := terminal_next hrow (by rw [hs]; rfl) fun _ => hpublish
  deferral pre deferral reason date mid claim hdefer hmid hclaim := by
    obtain ⟨row, hrow, hheld⟩ := deferral_held hdefer hmid
    exact claimsJob_held hrow hheld hclaim

end InboxServer
