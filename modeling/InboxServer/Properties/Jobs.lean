import InboxServer.Api.Backend

/-!
# What one call does to the jobs

The outcomes of a claim and of a finish, each said once for both backends. Everything below about
runs of these calls is derived from `claimJob_outcome` and `finishJob_outcome`; the bodies of the
calls are not looked at again.
-/

namespace InboxServer

open Infra

/-! ## Claims -/

/-- A claim may take the row: it is not terminal, not deferred any more, and nobody works on it. -/
structure JobRow.Claimable (now : Instant) (row : JobRow) : Prop where
  live : row.status.isTerminal = false
  due : row.status = .deferred → row.deferredAfter now = false
  free : row.status = .processing → isStale row.updatedAt now = true

/-- The envelopes after the first claim of a job: an article gets one. -/
def SealedBy (env : Env) (iv : Bytes) (job : QueueJob) (now : Instant)
    (before after : Table EnvelopeRow) : Prop :=
  if job.itemKind = some .article then
    ∃ ciphertext, env.encryptJson iv job.toJson = some ciphertext ∧
      before.insertUnless? (fun envelope => envelope.jobId = job.jobId)
        (EnvelopeRow.active env job ciphertext now) = some after
  else after = before

/-- The outcomes of a claim: the database afterwards, and the reply. -/
inductive ClaimOutcome (env : Env) (now : Instant) (iv : Bytes) (input : Json) (db : Db) :
    Db × Except ErrorText ClaimJobReply → Prop where
  /-- Nothing was claimed, and nothing changed. -/
  | refused {reply} (h : ∀ r, reply = .ok r → r.isClaimed = false) :
      ClaimOutcome env now iv input db (db, reply)
  /-- The first claim of the key. -/
  | created {job jobs envelopes} (parse : parseQueueJob env.zod input = some job)
      (insert : db.jobs.insert? (JobRow.claimed job now) = some jobs)
      (sealed : SealedBy env iv job now db.envelopes envelopes) :
      ClaimOutcome env now iv input db ({ db with jobs, envelopes }, .ok (.claimed 1))
  /-- A row that was there is taken. -/
  | reclaimed {job row jobs} (parse : parseQueueJob env.zod input = some job)
      (lookup : db.jobs.lookup JobRow.dedupeKey job.dedupeKey = some row)
      (claimable : row.Claimable now)
      (update : db.jobs.update? (fun r => r.dedupeKey = job.dedupeKey)
        (JobRow.reclaim (row.attempts + 1) job.jobId now) = some jobs) :
      ClaimOutcome env now iv input db ({ db with jobs }, .ok (.claimed (row.attempts + 1)))

theorem safeInteger_eq_ok {value n : Nat} (h : safeInteger value = .ok n) : n = value := by
  unfold safeInteger at h
  split at h
  · exact (Except.ok.inj h).symm
  · cases h

/-- The `UPDATE` of a claim, written with the attempts of the row that was read. -/
theorem Postgres.reclaim_update? {jobs : Table JobRow} {dedupeKey jobId : String} {now : Instant}
    {existing : JobRow} (h : jobs.lookup JobRow.dedupeKey dedupeKey = some existing) :
    jobs.update? (fun row => row.dedupeKey = dedupeKey)
        (fun row => row.reclaim (row.attempts + 1) jobId now) =
      jobs.update? (fun row => row.dedupeKey = dedupeKey)
        (JobRow.reclaim (existing.attempts + 1) jobId now) := by
  apply Table.update?_congr
  intro row hrow hmet
  have hsame : jobs.lookup JobRow.dedupeKey dedupeKey = some row :=
    (Table.lookup_eq_some JobRow.isKey_dedupeKey).mpr ⟨hrow, of_decide_eq_true hmet⟩
  rw [Option.some.inj (hsame.symm.trans h)]

theorem Postgres.claimJob_outcome (env : Env) (now : Instant) (iv : Bytes) (input : Json)
    (db : Db) :
    ClaimOutcome env now iv input db (transact db (Postgres.claimJob env now iv input db)) := by
  unfold Postgres.claimJob
  cases hparse : parseQueueJob env.zod input with
  | none => exact .refused (by simp)
  | some job =>
    dsimp only
    -- the insert meets no row, or the row that is there is looked at
    cases hins : db.jobs.insert? (JobRow.claimed job now) with
    | some jobs =>
      dsimp only
      by_cases harticle : job.itemKind = some .article
      · rw [if_pos harticle]
        cases henc : env.encryptJson iv job.toJson with
        | none => exact .refused (by simp)
        | some ciphertext =>
          dsimp only
          cases henv : db.envelopes.insertUnless? (fun envelope => envelope.jobId = job.jobId)
              (EnvelopeRow.active env job ciphertext now) with
          | none => exact .refused (by simp)
          | some envelopes =>
            refine .created hparse hins ?_
            rw [SealedBy, if_pos harticle]
            exact ⟨ciphertext, henc, henv⟩
      · rw [if_neg harticle]
        refine .created hparse hins ?_
        rw [SealedBy, if_neg harticle]
    | none =>
      dsimp only
      unfold Postgres.claimExisting
      cases hl : db.jobs.lookup JobRow.dedupeKey job.dedupeKey with
      | none => exact .refused (by simp)
      | some existing =>
        dsimp only
        -- three rows refuse a claim: a terminal, a deferred and a fresh one
        split_ifs with hterminal hdeferred hbusy
        · exact .refused (by simp [ClaimJobReply.isClaimed])
        · exact .refused (by simp [ClaimJobReply.isClaimed])
        · exact .refused (by simp [ClaimJobReply.isClaimed])
        · rw [Postgres.reclaim_update? hl]
          cases hup : db.jobs.update? (fun row => row.dedupeKey = job.dedupeKey)
              (JobRow.reclaim (existing.attempts + 1) job.jobId now) with
          | none => exact .refused (by simp)
          | some jobs =>
            dsimp only
            cases hsafe : safeInteger (existing.attempts + 1) with
            | error text => exact .refused (by simp)
            | ok attempts =>
              rw [safeInteger_eq_ok hsafe]
              refine .reclaimed hparse hl ⟨?_, fun h => ?_, fun h => ?_⟩ hup
              · simpa using hterminal
              · simpa [h] using hdeferred
              · simpa [h] using hbusy

/-! ### On D1 -/

theorem D1.takeJob_outcome {env : Env} {now : Instant} {iv : Bytes} {input : Json} {db : Db}
    {job : QueueJob} {row : JobRow} (hparse : parseQueueJob env.zod input = some job)
    (hl : db.jobs.lookup JobRow.dedupeKey job.dedupeKey = some row) (hc : row.Claimable now) :
    ClaimOutcome env now iv input db (D1.runAt now (D1.takeJob job row) db) := by
  unfold D1.takeJob
  rw [D1.runAt_now]
  cases hup : db.jobs.update? (fun r => r.dedupeKey = job.dedupeKey)
      (JobRow.reclaim (row.attempts + 1) job.jobId now) with
  | none =>
    rw [D1.runAt_commit_none (by simp [D1.Write.apply, hup])]
    exact .refused (by simp)
  | some jobs =>
    rw [D1.runAt_commit (by simp [D1.Write.apply, hup]; rfl)]
    exact .reclaimed hparse hl hc hup

/-- The batch of a first claim of an article, which has two statements. -/
theorem D1.insertArticle {db : Db} {row : JobRow} {envelope : EnvelopeRow} :
    [D1.Write.insertJob row, .insertEnvelope envelope].foldlM D1.Write.apply db =
      (db.jobs.insert? row).bind fun jobs =>
        (db.envelopes.insertUnless? (fun e => e.jobId = envelope.jobId) envelope).map
          fun envelopes => { db with jobs, envelopes } := by
  simp only [List.foldlM_cons, List.foldlM_nil, D1.Write.apply]
  cases db.jobs.insert? row with
  | none => rfl
  | some jobs => simp

theorem D1.insertJob_outcome {env : Env} {now : Instant} {iv : Bytes} {input : Json} {db : Db}
    {job : QueueJob} (hparse : parseQueueJob env.zod input = some job) :
    ClaimOutcome env now iv input db (D1.runAt now (D1.insertJob env iv job) db) := by
  unfold D1.insertJob
  rw [D1.runAt_now]
  by_cases harticle : job.itemKind = some .article
  · rw [if_pos harticle]
    cases henc : env.encryptJson iv job.toJson with
    | none => exact .refused (by simp)
    | some ciphertext =>
      dsimp only
      cases hw : [D1.Write.insertJob (JobRow.claimed job now),
          .insertEnvelope (EnvelopeRow.active env job ciphertext now)].foldlM D1.Write.apply db with
      | none =>
        rw [D1.runAt_commit_none hw]
        exact .refused (by simp)
      | some db' =>
        rw [D1.runAt_commit hw]
        rw [D1.insertArticle, Option.bind_eq_some_iff] at hw
        obtain ⟨jobs, hins, hw⟩ := hw
        obtain ⟨envelopes, henv, rfl⟩ := Option.map_eq_some_iff.mp hw
        refine .created hparse hins ?_
        rw [SealedBy, if_pos harticle]
        exact ⟨ciphertext, henc, henv⟩
  · rw [if_neg harticle]
    cases hins : db.jobs.insert? (JobRow.claimed job now) with
    | none =>
      rw [D1.runAt_commit_none (by simp [D1.Write.apply, hins])]
      exact .refused (by simp)
    | some jobs =>
      rw [D1.runAt_commit (by simp [D1.Write.apply, hins]; rfl)]
      refine .created hparse hins ?_
      rw [SealedBy, if_neg harticle]

theorem D1.claimJob_outcome (env : Env) (now : Instant) (iv : Bytes) (input : Json) (db : Db) :
    ClaimOutcome env now iv input db (D1.runAt now (D1.claimJob env iv input) db) := by
  unfold D1.claimJob
  cases hparse : parseQueueJob env.zod input with
  | none => exact .refused (by simp)
  | some job =>
    dsimp only
    rw [D1.runAt_selectJob]
    cases hl : db.jobs.lookup JobRow.dedupeKey job.dedupeKey with
    | none => exact D1.insertJob_outcome hparse
    | some row =>
      dsimp only
      cases hs : row.status with
      | done | dead | uncertain => exact .refused (by simp [ClaimJobReply.isClaimed])
      | failed =>
        exact D1.takeJob_outcome hparse hl ⟨by rw [hs]; rfl, by simp [hs], by simp [hs]⟩
      | processing =>
        dsimp only
        rw [D1.runAt_now]
        by_cases hstale : isStale row.updatedAt now = true
        · rw [if_pos hstale]
          exact D1.takeJob_outcome hparse hl ⟨by rw [hs]; rfl, by simp [hs], fun _ => hstale⟩
        · rw [if_neg hstale]
          exact .refused (by simp [ClaimJobReply.isClaimed])
      | deferred =>
        dsimp only
        cases hd : row.deferredUntil with
        | none =>
          exact D1.takeJob_outcome hparse hl
            ⟨by rw [hs]; rfl, fun _ => by simp [JobRow.deferredAfter, hd], by simp [hs]⟩
        | some date =>
          dsimp only
          rw [D1.runAt_now]
          by_cases hdue : row.deferredAfter now = true
          · rw [if_pos hdue]
            exact .refused (by simp [ClaimJobReply.isClaimed])
          · rw [if_neg hdue]
            exact D1.takeJob_outcome hparse hl
              ⟨by rw [hs]; rfl, fun _ => by simpa using hdue, by simp [hs]⟩

/-- A claim, on either backend, has one of the three outcomes. -/
theorem claimJob_outcome (backend : Backend) (env : Env) (now : Instant) (iv : Bytes)
    (input : Json) (db : Db) :
    ClaimOutcome env now iv input db (backend.claimJob env now iv input db) := by
  cases backend with
  | postgres => exact Postgres.claimJob_outcome env now iv input db
  | d1 => exact D1.claimJob_outcome env now iv input db

/-! ## Finishes -/

namespace JobRow

/-- A failed finish is the end of the job. -/
def dies (errorClass : Option JobErrorClass) (row : JobRow) : Bool :=
  errorClass.getD .permanent = .permanent || row.failureAttempts + 1 ≥ 3

/-- The row after a finish of it. -/
def finish (input : JobResult) (now : Instant) (row : JobRow) : JobRow :=
  match input with
  | .deferred reason retryAt => row.defer retryAt reason now
  | .uncertain reason => row.setUncertain (slice500 reason) now
  | .done summary => row.setDone (summary.getD []) now
  | .failed errorClass errorMessage _ =>
    if row.dies errorClass then
      row.setDead (row.failureAttempts + 1) (errorClass.getD .permanent)
        (errorMessageOf errorMessage) now
    else
      row.setFailed (row.failureAttempts + 1) (errorClass.getD .permanent)
        (errorMessageOf errorMessage) now

theorem finish_keys (input : JobResult) (now : Instant) (row : JobRow) :
    (row.finish input now).dedupeKey = row.dedupeKey ∧ (row.finish input now).jobId = row.jobId := by
  cases input with
  | failed errorClass errorMessage payloadDigest =>
    unfold finish
    dsimp only
    split <;> exact ⟨rfl, rfl⟩
  | _ => exact ⟨rfl, rfl⟩

@[simp] theorem finish_dedupeKey (input : JobResult) (now : Instant) (row : JobRow) :
    (row.finish input now).dedupeKey = row.dedupeKey := (finish_keys input now row).1

@[simp] theorem finish_jobId (input : JobResult) (now : Instant) (row : JobRow) :
    (row.finish input now).jobId = row.jobId := (finish_keys input now row).2

instance (input : JobResult) (now : Instant) : Table.AddsNoConflict (finish input now) where
  conflict_of a b h := by
    simpa [Constrained.conflict] using h

end JobRow

/-- The envelopes after a finish that leaves the job in `status`. -/
def finishedEnvelopes (jobId : String) (status : JobStatus) (now : Instant)
    (envelopes : Table EnvelopeRow) : Table EnvelopeRow :=
  match status with
  | .done => envelopes.delete fun e => e.jobId = jobId
  | .uncertain => envelopes.update (fun e => e.jobId = jobId) (EnvelopeRow.setStatus .uncertain now)
  | .dead => envelopes.update (fun e => e.jobId = jobId) (EnvelopeRow.setStatus .dead now)
  | .processing | .deferred | .failed => envelopes

/-- The letter that a finish of `row` writes, if the row dies of it. -/
def writesLetter (now : Instant) (jobId : String) (input : JobResult) (row : JobRow)
    (envelopes : Table EnvelopeRow) : Option DeadLetterRow :=
  match input with
  | .failed errorClass errorMessage payloadDigest =>
    if row.dies errorClass then
      (deadLetterDigest (envelopes.lookup EnvelopeRow.jobId jobId) payloadDigest).map fun digest =>
        deadLetterOf jobId row (row.failureAttempts + 1) (errorClass.getD .permanent)
          (errorMessageOf errorMessage) digest (envelopes.lookup EnvelopeRow.jobId jobId) now
    else none
  | .deferred .. | .uncertain _ | .done _ => none

/-- What a finish of a job that is not terminal does to the database. -/
structure Finished (now : Instant) (jobId : String) (input : JobResult) (row : JobRow)
    (db db' : Db) : Prop where
  jobs : db'.jobs = db.jobs.update (fun r => r.jobId = jobId) (JobRow.finish input now)
  envelopes : db'.envelopes =
    finishedEnvelopes jobId (row.finish input now).status now db.envelopes
  deadLetters : db'.deadLetters =
    match writesLetter now jobId input row db.envelopes with
    | some letter => db.deadLetters.upsert letter letter.rewrite
    | none => db.deadLetters
  letter : (row.finish input now).status = .dead →
    (writesLetter now jobId input row db.envelopes).isSome = true
  effects : db'.effects = db.effects
  replayOperations : db'.replayOperations = db.replayOperations
  inbox : db'.inbox = db.inbox

/-- The outcomes of a finish: the database afterwards, and the reply. -/
inductive FinishOutcome (now : Instant) (jobId : String) (input : JobResult) (db : Db) :
    Db × Except ErrorText Settlement → Prop where
  /-- The call threw, and nothing changed. -/
  | threw {text} : FinishOutcome now jobId input db (db, .error text)
  /-- The job was terminal already, and nothing changed. -/
  | settled {row} (lookup : db.jobs.lookup JobRow.jobId jobId = some row)
      (terminal : row.status.isTerminal = true) : FinishOutcome now jobId input db (db, .ok .ack)
  /-- The job takes the result. -/
  | finished {row db' settlement} (lookup : db.jobs.lookup JobRow.jobId jobId = some row)
      (live : row.status.isTerminal = false) (finished : Finished now jobId input row db db')
      (settlement_eq : settlement = .ack ↔ (row.finish input now).status.isTerminal = true) :
      FinishOutcome now jobId input db (db', .ok settlement)

/-- Where a change agrees with `finish` on the row of a job, so does its `UPDATE`. -/
theorem update_finish {jobs : Table JobRow} {jobId : String} {row : JobRow}
    (h : jobs.lookup JobRow.jobId jobId = some row) {f : JobRow → JobRow}
    [Table.AddsNoConflict f] {input : JobResult} {now : Instant} (hf : f row = row.finish input now) :
    jobs.update (fun r => r.jobId = jobId) f =
      jobs.update (fun r => r.jobId = jobId) (JobRow.finish input now) := by
  refine Table.update_congr fun r hr hmet => ?_
  have hsame : jobs.lookup JobRow.jobId jobId = some r :=
    (Table.lookup_eq_some JobRow.isKey_jobId).mpr ⟨hr, of_decide_eq_true hmet⟩
  rw [Option.some.inj (hsame.symm.trans h), hf]

/-- The finish of a job that lives on, or ends without a letter. -/
theorem Finished.of_no_letter {now : Instant} {jobId : String} {input : JobResult} {row : JobRow}
    {db db' : Db} (hl : db.jobs.lookup JobRow.jobId jobId = some row) {f : JobRow → JobRow}
    [Table.AddsNoConflict f] (hf : f row = row.finish input now)
    (hletter : writesLetter now jobId input row db.envelopes = none)
    (halive : (row.finish input now).status ≠ .dead)
    (hjobs : db'.jobs = db.jobs.update (fun r => r.jobId = jobId) f)
    (henvelopes : db'.envelopes =
      finishedEnvelopes jobId (row.finish input now).status now db.envelopes)
    (hrest : db'.deadLetters = db.deadLetters ∧ db'.effects = db.effects ∧
      db'.replayOperations = db.replayOperations ∧ db'.inbox = db.inbox) :
    Finished now jobId input row db db' where
  jobs := by rw [hjobs, update_finish hl hf]
  envelopes := henvelopes
  deadLetters := by rw [hletter]; exact hrest.1
  letter h := absurd h halive
  effects := hrest.2.1
  replayOperations := hrest.2.2.1
  inbox := hrest.2.2.2

/-- The finish of a job that dies. -/
theorem Finished.of_dies {now : Instant} {jobId : String} {errorClass : Option JobErrorClass}
    {errorMessage payloadDigest : Option String} {row : JobRow} {db db' : Db} {digest : String}
    (hl : db.jobs.lookup JobRow.jobId jobId = some row) (hdies : row.dies errorClass = true)
    (hdigest : deadLetterDigest (db.envelopes.lookup EnvelopeRow.jobId jobId) payloadDigest =
      some digest)
    (hjobs : db'.jobs = db.jobs.update (fun r => r.jobId = jobId)
      (JobRow.setDead (row.failureAttempts + 1) (errorClass.getD .permanent)
        (errorMessageOf errorMessage) now))
    (henvelopes : db'.envelopes = db.envelopes.update (fun e => e.jobId = jobId)
      (EnvelopeRow.setStatus .dead now))
    (hletters : ∀ letter, letter = deadLetterOf jobId row (row.failureAttempts + 1)
        (errorClass.getD .permanent) (errorMessageOf errorMessage) digest
        (db.envelopes.lookup EnvelopeRow.jobId jobId) now →
      db'.deadLetters = db.deadLetters.upsert letter letter.rewrite)
    (hrest : db'.effects = db.effects ∧ db'.replayOperations = db.replayOperations ∧
      db'.inbox = db.inbox) :
    Finished now jobId (.failed errorClass errorMessage payloadDigest) row db db' where
  jobs := by
    have hfinish : row.setDead (row.failureAttempts + 1) (errorClass.getD .permanent)
        (errorMessageOf errorMessage) now =
        row.finish (.failed errorClass errorMessage payloadDigest) now := by
      rw [JobRow.finish, if_pos hdies]
    rw [hjobs, update_finish hl hfinish]
  envelopes := by
    have hstatus : (row.finish (.failed errorClass errorMessage payloadDigest) now).status = .dead :=
      by rw [JobRow.finish, if_pos hdies]; rfl
    rw [hstatus]
    exact henvelopes
  deadLetters := by
    rw [writesLetter, if_pos hdies, hdigest]
    exact hletters _ rfl
  letter _ := by rw [writesLetter, if_pos hdies, hdigest]; rfl
  effects := hrest.1
  replayOperations := hrest.2.1
  inbox := hrest.2.2

/-- A failed finish moves the job as the policy decides. -/
theorem decideJobTransition_failed (row : JobRow) (errorClass : Option JobErrorClass) :
    decideJobTransition { failureAttempts := row.failureAttempts, status := row.status }
        (.failed (errorClass.getD .permanent)) =
      { failureAttempts := row.failureAttempts + 1
        status := if row.dies errorClass then .dead else .failed } := by
  simp [decideJobTransition, JobRow.dies]

section Results

variable {now : Instant} {jobId : String} {row : JobRow} {db db' : Db}
  {errorClass : Option JobErrorClass} {errorMessage payloadDigest : Option String}
  (hl : db.jobs.lookup JobRow.jobId jobId = some row) (hlive : row.status.isTerminal = false)

include hl hlive

/-- A job that is put off is tried again. -/
theorem FinishOutcome.of_deferred {reason : DeferReason} {retryAt : DateText} {delay : Option Int}
    (h : db' = { db with
      jobs := db.jobs.update (fun r => r.jobId = jobId) (JobRow.defer retryAt reason now) }) :
    FinishOutcome now jobId (.deferred reason retryAt) db (db', .ok (.retry delay)) := by
  subst h
  refine .finished hl hlive (Finished.of_no_letter hl rfl rfl ?_ rfl rfl ⟨rfl, rfl, rfl, rfl⟩) ?_
  · simp [JobRow.finish, JobRow.defer]
  · simp [JobRow.finish, JobRow.defer, JobStatus.isTerminal]

/-- A job whose fate nobody knows ends, and keeps its envelope. -/
theorem FinishOutcome.of_uncertain {reason : String}
    (h : db' = { db with
      jobs := db.jobs.update (fun r => r.jobId = jobId) (JobRow.setUncertain (slice500 reason) now)
      envelopes := db.envelopes.update (fun e => e.jobId = jobId)
        (EnvelopeRow.setStatus .uncertain now) }) :
    FinishOutcome now jobId (.uncertain reason) db (db', .ok .ack) := by
  subst h
  refine .finished hl hlive (Finished.of_no_letter hl rfl rfl ?_ rfl rfl ⟨rfl, rfl, rfl, rfl⟩) ?_
  · simp [JobRow.finish, JobRow.setUncertain]
  · simp [JobRow.finish, JobRow.setUncertain, JobStatus.isTerminal]

/-- A job that is done ends, and loses its envelope; its sync run may have a report. -/
theorem FinishOutcome.of_done {summary : Option Fields} {syncJobs : Table SyncJobRow}
    (h : db' = { db with
      jobs := db.jobs.update (fun r => r.jobId = jobId) (JobRow.setDone (summary.getD []) now)
      envelopes := db.envelopes.delete fun e => e.jobId = jobId
      syncJobs }) :
    FinishOutcome now jobId (.done summary) db (db', .ok .ack) := by
  subst h
  refine .finished hl hlive (Finished.of_no_letter hl rfl rfl ?_ rfl rfl ⟨rfl, rfl, rfl, rfl⟩) ?_
  · simp [JobRow.finish, JobRow.setDone]
  · simp [JobRow.finish, JobRow.setDone, JobStatus.isTerminal]

/-- A job that fails, and has failures left, is tried again. -/
theorem FinishOutcome.of_failed {delay : Option Int} (hlives : row.dies errorClass = false)
    (h : db' = { db with
      jobs := db.jobs.update (fun r => r.jobId = jobId) (JobRow.setFailed (row.failureAttempts + 1)
        (errorClass.getD .permanent) (errorMessageOf errorMessage) now) }) :
    FinishOutcome now jobId (.failed errorClass errorMessage payloadDigest) db
      (db', .ok (.retry delay)) := by
  subst h
  have hfinish : row.finish (.failed errorClass errorMessage payloadDigest) now =
      row.setFailed (row.failureAttempts + 1) (errorClass.getD .permanent)
        (errorMessageOf errorMessage) now := by
    simp [JobRow.finish, hlives]
  refine .finished hl hlive (Finished.of_no_letter hl hfinish.symm ?_ ?_ rfl ?_
    ⟨rfl, rfl, rfl, rfl⟩) ?_
  · simp [writesLetter, hlives]
  · rw [hfinish]; simp [JobRow.setFailed]
  · rw [hfinish]; rfl
  · rw [hfinish]; simp [JobRow.setFailed, JobStatus.isTerminal]

/-- A job that fails once too often dies, with a letter. -/
theorem FinishOutcome.of_dies {digest : String} {syncJobs : Table SyncJobRow}
    (hdies : row.dies errorClass = true)
    (hdigest : deadLetterDigest (db.envelopes.lookup EnvelopeRow.jobId jobId) payloadDigest =
      some digest)
    (h : ∀ letter, letter = deadLetterOf jobId row (row.failureAttempts + 1)
        (errorClass.getD .permanent) (errorMessageOf errorMessage) digest
        (db.envelopes.lookup EnvelopeRow.jobId jobId) now →
      db' = { db with
        jobs := db.jobs.update (fun r => r.jobId = jobId) (JobRow.setDead (row.failureAttempts + 1)
          (errorClass.getD .permanent) (errorMessageOf errorMessage) now)
        deadLetters := db.deadLetters.upsert letter letter.rewrite
        envelopes := db.envelopes.update (fun e => e.jobId = jobId) (EnvelopeRow.setStatus .dead now)
        syncJobs }) :
    FinishOutcome now jobId (.failed errorClass errorMessage payloadDigest) db (db', .ok .ack) := by
  have hdb := h _ rfl
  subst hdb
  refine .finished hl hlive (Finished.of_dies hl hdies hdigest rfl rfl (fun letter hletter => ?_)
    ⟨rfl, rfl, rfl⟩) ?_
  · rw [hletter]
  · simp [JobRow.finish, hdies, JobRow.setDead, JobStatus.isTerminal]

theorem Postgres.failJob_outcome :
    FinishOutcome now jobId (.failed errorClass errorMessage payloadDigest) db
      (transact db (Postgres.failJob now jobId row (errorClass.getD .permanent)
        (errorMessageOf errorMessage) payloadDigest db)) := by
  unfold Postgres.failJob
  cases hsafe : safeInteger row.failureAttempts with
  | error text => exact .threw
  | ok failureAttempts =>
    obtain rfl := safeInteger_eq_ok hsafe
    dsimp only
    cases hdies : row.dies errorClass with
    | true =>
      rw [if_neg (by simp [decideJobTransition_failed, hdies])]
      simp only [decideJobTransition_failed]
      unfold Postgres.buryJob
      dsimp only
      cases hdigest : deadLetterDigest (db.envelopes.lookup EnvelopeRow.jobId jobId)
          payloadDigest with
      | none => exact .threw
      | some digest =>
        exact FinishOutcome.of_dies hl hlive hdies hdigest fun letter hletter => by rw [hletter]
    | false =>
      rw [if_pos (by simp [decideJobTransition_failed, hdies])]
      simp only [decideJobTransition_failed]
      exact FinishOutcome.of_failed hl hlive hdies rfl

end Results

/-- A finish on PostgreSQL. -/
theorem Postgres.finishJob_outcome (now : Instant) (jobId : String) (input : JobResult) (db : Db) :
    FinishOutcome now jobId input db (transact db (Postgres.finishJob now jobId input db)) := by
  unfold Postgres.finishJob
  cases hl : db.jobs.lookup JobRow.jobId jobId with
  | none => exact .threw
  | some row =>
    dsimp only
    by_cases hterminal : row.status.isTerminal = true
    · rw [if_pos hterminal]
      exact .settled hl hterminal
    · rw [if_neg hterminal]
      rw [Bool.not_eq_true] at hterminal
      cases input with
      | deferred reason retryAt => exact FinishOutcome.of_deferred hl hterminal rfl
      | uncertain reason => exact FinishOutcome.of_uncertain hl hterminal rfl
      | done summary => exact FinishOutcome.of_done hl hterminal rfl
      | failed errorClass errorMessage payloadDigest =>
        exact Postgres.failJob_outcome hl hterminal

/-! ### On D1 -/

/-- The report to a sync run, if there is one, is a write that does what PostgreSQL does. -/
theorem D1.runAt_prepareSyncJobCompletion (now : Instant) (row : JobRow) (report : SyncJobUpdate)
    (k : List D1.Write → D1.Call Settlement) (db : Db) :
    ∃ writes : List D1.Write,
      D1.runAt now (D1.prepareSyncJobCompletion row report k) db = D1.runAt now (k writes) db ∧
      ∀ db', db'.syncJobs = db.syncJobs → writes.foldlM D1.Write.apply db' =
        some { db' with syncJobs := updateSyncJobCompletion row report db.syncJobs } := by
  have hnone : ∀ db' : Db, db'.syncJobs = db.syncJobs →
      ([] : List D1.Write).foldlM D1.Write.apply db' = some { db' with syncJobs := db.syncJobs } :=
    fun db' h => by rw [← h]; rfl
  unfold D1.prepareSyncJobCompletion updateSyncJobCompletion
  cases collectRun row with
  | none => exact ⟨[], rfl, hnone⟩
  | some run =>
    dsimp only
    rw [D1.runAt_selectSyncJob]
    cases db.syncJobs.lookup SyncJobRow.id run.2 with
    | none => exact ⟨[], rfl, hnone⟩
    | some syncJob => exact ⟨_, rfl, fun db' h => by rw [← h]; rfl⟩

section Results

variable {now : Instant} {jobId : String} {row : JobRow} {db : Db}
  (hl : db.jobs.lookup JobRow.jobId jobId = some row) (hlive : row.status.isTerminal = false)

include hl hlive

/-- The batch of a job that is done, with the report to its sync run. -/
theorem D1.doneJob_outcome (summary : Option Fields) :
    FinishOutcome now jobId (.done summary) db
      (D1.runAt now (D1.prepareSyncJobCompletion row (doneReport summary now) fun syncUpdate =>
        D1.Call.commit (.setJobDone (summary.getD []) now jobId :: .deleteEnvelope jobId ::
          syncUpdate) .ack) db) := by
  obtain ⟨writes, hrun, hwrites⟩ := D1.runAt_prepareSyncJobCompletion now row
    (doneReport summary now) (fun syncUpdate => D1.Call.commit
      (.setJobDone (summary.getD []) now jobId :: .deleteEnvelope jobId :: syncUpdate) .ack) db
  have hsync := hwrites { db with
    jobs := db.jobs.update (fun r => r.jobId = jobId) (JobRow.setDone (summary.getD []) now)
    envelopes := db.envelopes.delete fun e => e.jobId = jobId } rfl
  have hall : (D1.Write.setJobDone (summary.getD []) now jobId :: .deleteEnvelope jobId ::
      writes).foldlM D1.Write.apply db = some _ := hsync
  rw [hrun, D1.runAt_commit hall]
  exact FinishOutcome.of_done hl hlive rfl

/-- The last failure of a job: it has a letter, unless nothing can be said of its payload. -/
theorem D1.buryJob_outcome {errorClass : Option JobErrorClass}
    (errorMessage payloadDigest : Option String) (hdies : row.dies errorClass = true) :
    FinishOutcome now jobId (.failed errorClass errorMessage payloadDigest) db
      (D1.runAt now (D1.buryJob now jobId row (row.failureAttempts + 1) (errorClass.getD .permanent)
        (errorMessageOf errorMessage) payloadDigest) db) := by
  unfold D1.buryJob
  rw [D1.runAt_selectEnvelope]
  cases hdigest : deadLetterDigest (db.envelopes.lookup EnvelopeRow.jobId jobId) payloadDigest with
  | none => exact .threw
  | some digest =>
    dsimp only
    generalize hletter : deadLetterOf jobId row (row.failureAttempts + 1)
      (errorClass.getD .permanent) (errorMessageOf errorMessage) digest
      (db.envelopes.lookup EnvelopeRow.jobId jobId) now = letter
    obtain ⟨writes, hrun, hwrites⟩ := D1.runAt_prepareSyncJobCompletion now row
      (deadReport (errorMessageOf errorMessage) now) (fun syncUpdate => D1.Call.commit
        (.setJobDead (row.failureAttempts + 1) (errorClass.getD .permanent)
          (errorMessageOf errorMessage) now jobId :: .upsertDeadLetter letter ::
          .setEnvelopeStatus .dead now jobId :: syncUpdate) .ack) db
    have hsync := hwrites { db with
      jobs := db.jobs.update (fun r => r.jobId = jobId)
        (JobRow.setDead (row.failureAttempts + 1) (errorClass.getD .permanent)
          (errorMessageOf errorMessage) now)
      deadLetters := db.deadLetters.upsert letter letter.rewrite
      envelopes := db.envelopes.update (fun e => e.jobId = jobId)
        (EnvelopeRow.setStatus .dead now) } rfl
    have hall : (D1.Write.setJobDead (row.failureAttempts + 1)
        (errorClass.getD .permanent) (errorMessageOf errorMessage) now jobId ::
        .upsertDeadLetter letter :: .setEnvelopeStatus .dead now jobId ::
        writes).foldlM D1.Write.apply db = some _ := hsync
    rw [hrun, D1.runAt_commit hall]
    exact FinishOutcome.of_dies hl hlive hdies hdigest fun letter' h => by rw [h, hletter]

end Results

/-- A finish on D1. -/
theorem D1.finishJob_outcome (now : Instant) (jobId : String) (input : JobResult) (db : Db) :
    FinishOutcome now jobId input db (D1.runAt now (D1.finishJob jobId input) db) := by
  unfold D1.finishJob
  rw [D1.runAt_selectJobById]
  cases hl : db.jobs.lookup JobRow.jobId jobId with
  | none => exact .threw
  | some row =>
    dsimp only
    by_cases hterminal : row.status.isTerminal = true
    · rw [if_pos hterminal]
      exact .settled hl hterminal
    · rw [if_neg hterminal, D1.runAt_now]
      rw [Bool.not_eq_true] at hterminal
      cases input with
      | deferred reason retryAt => exact FinishOutcome.of_deferred hl hterminal rfl
      | uncertain reason =>
        dsimp only
        rw [D1.runAt_commit rfl]
        exact FinishOutcome.of_uncertain hl hterminal rfl
      | done summary => exact D1.doneJob_outcome hl hterminal summary
      | failed errorClass errorMessage payloadDigest =>
        dsimp only
        cases hdies : row.dies errorClass with
        | true =>
          rw [if_neg (by simp [decideJobTransition_failed, hdies])]
          simp only [decideJobTransition_failed]
          exact D1.buryJob_outcome hl hterminal errorMessage payloadDigest hdies
        | false =>
          rw [if_pos (by simp [decideJobTransition_failed, hdies])]
          simp only [decideJobTransition_failed]
          rw [D1.runAt_commit rfl]
          exact FinishOutcome.of_failed hl hterminal hdies rfl

/-- A finish, on either backend, has one of the three outcomes. -/
theorem finishJob_outcome (backend : Backend) (now : Instant) (jobId : String) (input : JobResult)
    (db : Db) : FinishOutcome now jobId input db (backend.finishJob now jobId input db) := by
  cases backend with
  | postgres => exact Postgres.finishJob_outcome now jobId input db
  | d1 => exact D1.finishJob_outcome now jobId input db

/-! ## The row of a key -/

/-- The row of a job. -/
def jobRow (dedupeKey : String) (db : Db) : Option JobRow :=
  db.jobs.lookup JobRow.dedupeKey dedupeKey

theorem jobRow_eq_some {dedupeKey : String} {db : Db} {row : JobRow} :
    jobRow dedupeKey db = some row ↔ row ∈ db.jobs ∧ row.dedupeKey = dedupeKey :=
  Table.lookup_eq_some JobRow.isKey_dedupeKey

/-- Two keys are bound to one job id only if they are one key. -/
theorem jobRow_inj {k k' : String} {db : Db} {row row' : JobRow} (h : jobRow k db = some row)
    (h' : jobRow k' db = some row') (hid : row.jobId = row'.jobId) : k = k' := by
  obtain ⟨hmem, rfl⟩ := jobRow_eq_some.mp h
  obtain ⟨hmem', rfl⟩ := jobRow_eq_some.mp h'
  rw [Table.eq_of_conflict hmem hmem' (JobRow.isKey_jobId _ _ hid)]

theorem lookup_jobId_iff {jobId : String} {db : Db} {row : JobRow} :
    db.jobs.lookup JobRow.jobId jobId = some row ↔
      jobRow row.dedupeKey db = some row ∧ row.jobId = jobId := by
  rw [Table.lookup_eq_some JobRow.isKey_jobId, jobRow_eq_some]
  simp

/-- The row of a key after a claim of it. -/
def JobRow.afterClaim (job : QueueJob) (now : Instant) : Option JobRow → JobRow
  | none => claimed job now
  | some row => row.reclaim (row.attempts + 1) job.jobId now

/-- What a claim does to the rows: it takes the row of its key, or changes nothing. -/
inductive ClaimRows (env : Env) (now : Instant) (input : Json) (db : Db) :
    Db × Except ErrorText ClaimJobReply → Prop where
  | refused {reply} (h : ∀ r, reply = .ok r → r.isClaimed = false) :
      ClaimRows env now input db (db, reply)
  | claimed {job db' n} (parse : parseQueueJob env.zod input = some job)
      (claimable : ∀ row, jobRow job.dedupeKey db = some row → row.Claimable now)
      (rows : ∀ k, jobRow k db' =
        if job.dedupeKey = k then some (JobRow.afterClaim job now (jobRow k db)) else jobRow k db)
      (deadLetters : db'.deadLetters = db.deadLetters) :
      ClaimRows env now input db (db', .ok (.claimed n))

theorem ClaimOutcome.rows {env : Env} {now : Instant} {iv : Bytes} {input : Json} {db : Db}
    {result : Db × Except ErrorText ClaimJobReply} (h : ClaimOutcome env now iv input db result) :
    ClaimRows env now input db result := by
  cases h with
  | refused h => exact .refused h
  | @created job jobs envelopes parse insert sealed =>
    have hnone : jobRow job.dedupeKey db = none := by
      refine Table.lookup_eq_none.mpr fun row hrow hkey => ?_
      have hfresh := (Table.insert?_eq_some insert).2 row hrow
      rw [JobRow.isKey_dedupeKey row (JobRow.claimed job now) hkey] at hfresh
      exact Bool.noConfusion hfresh
    refine .claimed parse (fun row hrow => by rw [hnone] at hrow; cases hrow) (fun k => ?_) rfl
    refine (Table.lookup_insert? JobRow.isKey_dedupeKey insert k).trans ?_
    show (if job.dedupeKey = k then some (JobRow.claimed job now) else jobRow k db) = _
    split
    · next hk => rw [← hk, hnone]; rfl
    · rfl
  | @reclaimed job row jobs parse lookup claimable update =>
    have hrow : jobRow job.dedupeKey db = some row := lookup
    refine .claimed parse (fun r hr => ?_) (fun k => ?_) rfl
    · rw [← Option.some.inj (hrow.symm.trans hr)]
      exact claimable
    · refine (Table.lookup_update? update (fun _ => rfl) k).trans ?_
      show (jobRow k db).map _ = _
      split
      · next hk =>
        rw [← hk, hrow]
        simp [Table.lookup_key lookup, JobRow.afterClaim]
      · next hk =>
        cases hr : jobRow k db with
        | none => rfl
        | some r =>
          have hne : r.dedupeKey ≠ job.dedupeKey := by
            rw [Table.lookup_key hr]
            exact Ne.symm hk
          simp [hne]

/-- What a finish does to the rows: it finishes the row that has the job id, or nothing. -/
inductive FinishRows (now : Instant) (jobId : String) (input : JobResult) (db : Db) :
    Db × Except ErrorText Settlement → Prop where
  | threw {text} : FinishRows now jobId input db (db, .error text)
  | settled {row} (lookup : jobRow row.dedupeKey db = some row) (id : row.jobId = jobId)
      (terminal : row.status.isTerminal = true) : FinishRows now jobId input db (db, .ok .ack)
  | finished {row db' settlement} (lookup : jobRow row.dedupeKey db = some row)
      (id : row.jobId = jobId) (live : row.status.isTerminal = false)
      (finished : Finished now jobId input row db db')
      (rows : ∀ k, jobRow k db' =
        if row.dedupeKey = k then some (row.finish input now) else jobRow k db)
      (settlement_eq : settlement = .ack ↔ (row.finish input now).status.isTerminal = true) :
      FinishRows now jobId input db (db', .ok settlement)

theorem FinishOutcome.rows {now : Instant} {jobId : String} {input : JobResult} {db : Db}
    {result : Db × Except ErrorText Settlement} (h : FinishOutcome now jobId input db result) :
    FinishRows now jobId input db result := by
  cases h with
  | threw => exact .threw
  | settled lookup terminal =>
    obtain ⟨hrow, hid⟩ := lookup_jobId_iff.mp lookup
    exact .settled hrow hid terminal
  | @finished row db' settlement lookup live finished hsettle =>
    obtain ⟨hrow, hid⟩ := lookup_jobId_iff.mp lookup
    refine .finished hrow hid live finished (fun k => ?_) hsettle
    have hlookup : jobRow k db' =
        (jobRow k db).map fun r => if r.jobId = jobId then r.finish input now else r := by
      rw [jobRow, finished.jobs, Table.lookup_update (JobRow.finish_dedupeKey input now)]
      simp [jobRow]
    rw [hlookup]
    split
    · next hk => rw [← hk, hrow]; simp [hid]
    · next hk =>
      cases hr : jobRow k db with
      | none => rfl
      | some r =>
        have hne : r.jobId ≠ jobId := by
          intro he
          have hkeys := jobRow_inj hrow hr (hid.trans he.symm)
          exact hk hkeys
        simp [hne]

end InboxServer
