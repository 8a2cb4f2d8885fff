import InboxServer.Api.Service
import InboxServer.Properties.Effects
import InboxServer.Properties.Jobs
import InboxServer.Properties.Leases
import InboxServer.Properties.Sample

/-!
# Where the two backends agree

PostgreSQL inserts first and reads what it has met, D1 reads first and writes what it has computed;
PostgreSQL rolls a call that throws back, D1 does not. One lemma for each call says where the two
come to the same, and `backends_agree` runs them in lockstep.

* `Agreeable` — the states in which a call does the same on both backends
* `backends_agree` — the same replies and the same tables, call after call
* `backends_part` — a number beyond the safe range, a lease id that is taken and a dead letter with
  the envelope of another job, where they part
-/

namespace InboxServer

open Infra

variable {env : Env} {collation : Collation} {now : Instant} {db : Db}

/-! ## Claims of jobs -/

section ClaimJob

variable {iv : Bytes} {input : Json} {job : QueueJob}

/-- A key without a row: only a row with the job's id can be in the way. -/
theorem claimJob_new (hparse : parseQueueJob env.zod input = some job)
    (hl : db.jobs.lookup JobRow.dedupeKey job.dedupeKey = none) :
    outcome (Backend.d1.claimJob env now iv input db) =
      outcome (Backend.postgres.claimJob env now iv input db) := by
  have hd1 : D1.runAt now (D1.claimJob env iv input) db =
      D1.runAt now (D1.insertJob env iv job) db := by
    simp only [D1.claimJob, hparse, D1.runAt_selectJob, hl]
  simp only [Backend.claimJob, hd1, D1.insertJob, D1.runAt_now, Postgres.claimJob, hparse]
  -- D1 writes an article's row and envelope in one batch
  by_cases harticle : job.itemKind = some .article
  · rw [if_pos harticle]
    cases henc : env.encryptJson iv job.toJson with
    | none =>
      cases hins : db.jobs.insert? (JobRow.claimed job now) with
      | none => simp [Postgres.claimExisting, hl, transact, outcome, Except.toOption]
      | some jobs => simp [harticle, transact, outcome, Except.toOption]
    | some ciphertext =>
      dsimp only
      cases hins : db.jobs.insert? (JobRow.claimed job now) with
      | none =>
        rw [D1.runAt_commit_none (by rw [D1.insertArticle, hins]; rfl)]
        simp [Postgres.claimExisting, hl, transact, outcome, Except.toOption]
      | some jobs =>
        have hbatch : [D1.Write.insertJob (JobRow.claimed job now),
            .insertEnvelope (EnvelopeRow.active env job ciphertext now)].foldlM D1.Write.apply db =
              (db.envelopes.insertUnless? (fun envelope => envelope.jobId = job.jobId)
                (EnvelopeRow.active env job ciphertext now)).map
                  fun envelopes => { db with jobs, envelopes } := by
          rw [D1.insertArticle, hins]
          rfl
        dsimp only
        rw [if_pos harticle]
        cases henv : db.envelopes.insertUnless? (fun envelope => envelope.jobId = job.jobId)
            (EnvelopeRow.active env job ciphertext now) with
        | none =>
          rw [henv, Option.map_none] at hbatch
          rw [D1.runAt_commit_none hbatch]
          rfl
        | some envelopes =>
          rw [henv, Option.map_some] at hbatch
          rw [D1.runAt_commit hbatch]
          rfl
  · rw [if_neg harticle]
    cases hins : db.jobs.insert? (JobRow.claimed job now) with
    | none =>
      rw [D1.runAt_commit_none (by simp [D1.Write.apply, hins])]
      simp [Postgres.claimExisting, hl, transact, outcome, Except.toOption]
    | some jobs =>
      rw [D1.runAt_commit (by simp [D1.Write.apply, hins]; rfl)]
      simp [harticle, transact]

/-- The write of a claim of a row that is there, its attempts within the safe range. -/
theorem takeJob_agree {existing : JobRow}
    (hl : db.jobs.lookup JobRow.dedupeKey job.dedupeKey = some existing)
    (hc : existing.Claimable now) (hsafe : existing.attempts < maxSafeInteger) :
    outcome (D1.runAt now (D1.takeJob job existing) db) =
      outcome (transact db (Postgres.claimExisting now job db)) := by
  have hdeferred : ¬ (existing.status = .deferred ∧ existing.deferredAfter now = true) := by
    rintro ⟨hstatus, hlater⟩
    rw [hc.due hstatus] at hlater
    cases hlater
  have hbusy : ¬ (existing.status = .processing ∧ ¬ isStale existing.updatedAt now = true) := by
    rintro ⟨hstatus, hfresh⟩
    exact hfresh (hc.free hstatus)
  have hattempts : safeInteger (existing.attempts + 1) = .ok (existing.attempts + 1) := by
    rw [safeInteger, if_pos (by omega)]
  unfold D1.takeJob Postgres.claimExisting
  rw [D1.runAt_now]
  simp only [hl, hc.live, Bool.false_eq_true, if_false, if_neg hdeferred, if_neg hbusy,
    Postgres.reclaim_update? hl, hattempts]
  cases hup : db.jobs.update? (fun row => row.dedupeKey = job.dedupeKey)
      (JobRow.reclaim (existing.attempts + 1) job.jobId now) with
  | none =>
    rw [D1.runAt_commit_none (by simp [D1.Write.apply, hup])]
    rfl
  | some jobs =>
    rw [D1.runAt_commit (by simp [D1.Write.apply, hup]; rfl)]
    rfl

/-- A key with a row: it is taken where nothing stands against it, with a number that is safe. -/
theorem claimJob_existing {existing : JobRow} (hparse : parseQueueJob env.zod input = some job)
    (hl : db.jobs.lookup JobRow.dedupeKey job.dedupeKey = some existing)
    (hsafe : existing.Claimable now → existing.attempts < maxSafeInteger) :
    outcome (Backend.d1.claimJob env now iv input db) =
      outcome (Backend.postgres.claimJob env now iv input db) := by
  have hins : db.jobs.insert? (JobRow.claimed job now) = none :=
    Table.insert?_of_lookup_eq_some JobRow.isKey_dedupeKey hl
  have hpg : Postgres.claimJob env now iv input db = Postgres.claimExisting now job db := by
    simp only [Postgres.claimJob, hparse, hins]
  have htake : existing.Claimable now →
      outcome (D1.runAt now (D1.takeJob job existing) db) =
        outcome (transact db (Postgres.claimExisting now job db)) :=
    fun hc => takeJob_agree hl hc (hsafe hc)
  simp only [Backend.claimJob, hpg, D1.claimJob, hparse, D1.runAt_selectJob, hl]
  cases hstatus : existing.status with
  | done | dead | uncertain =>
    simp [Postgres.claimExisting, hl, hstatus, JobStatus.isTerminal, transact]
  | failed =>
    exact htake ⟨by simp [hstatus, JobStatus.isTerminal], by simp [hstatus], by simp [hstatus]⟩
  | processing =>
    dsimp only
    rw [D1.runAt_now]
    cases hstale : isStale existing.updatedAt now with
    | true =>
      rw [if_pos rfl]
      exact htake ⟨by simp [hstatus, JobStatus.isTerminal], by simp [hstatus], fun _ => hstale⟩
    | false =>
      simp [Postgres.claimExisting, hl, hstatus, hstale, JobStatus.isTerminal, transact]
  | deferred =>
    have hfree : existing.deferredAfter now = false → existing.Claimable now := fun hdue =>
      ⟨by simp [hstatus, JobStatus.isTerminal], fun _ => hdue, by simp [hstatus]⟩
    dsimp only
    cases huntil : existing.deferredUntil with
    | none => exact htake (hfree (by simp [JobRow.deferredAfter, huntil]))
    | some retryAt =>
      dsimp only
      rw [D1.runAt_now]
      cases hlater : existing.deferredAfter now with
      | false =>
        rw [if_neg Bool.false_ne_true]
        exact htake (hfree hlater)
      | true =>
        simp [Postgres.claimExisting, hl, hstatus, hlater, huntil, JobStatus.isTerminal, transact]

theorem claimJob_agree (iv : Bytes) (input : Json)
    (h : ∀ job ∈ parseQueueJob env.zod input, ∀ row ∈ db.jobs.lookup JobRow.dedupeKey job.dedupeKey,
      row.Claimable now → row.attempts < maxSafeInteger) :
    outcome (Backend.d1.claimJob env now iv input db) =
      outcome (Backend.postgres.claimJob env now iv input db) := by
  cases hparse : parseQueueJob env.zod input with
  | none => simp [Backend.claimJob, D1.claimJob, Postgres.claimJob, hparse, transact]
  | some job =>
    cases hl : db.jobs.lookup JobRow.dedupeKey job.dedupeKey with
    | none => exact claimJob_new hparse hl
    | some existing => exact claimJob_existing hparse hl (h job hparse existing hl)

end ClaimJob

/-! ## Finishes of jobs -/

section FinishJob

variable {jobId : String} {row : JobRow}

/-- The last failed finish: the report to the sync run is in the batch on one side. -/
theorem buryJob_agree (failureAttempts : Nat) (errorClass : JobErrorClass) (errorMessage : String)
    (payloadDigest : Option String) :
    D1.runAt now (D1.buryJob now jobId row failureAttempts errorClass errorMessage payloadDigest)
        db =
      transact db
        (Postgres.buryJob now jobId row failureAttempts errorClass errorMessage payloadDigest
          db) := by
  unfold D1.buryJob Postgres.buryJob
  rw [D1.runAt_selectEnvelope]
  dsimp only
  cases hdigest : deadLetterDigest (db.envelopes.lookup EnvelopeRow.jobId jobId) payloadDigest with
  | none => rfl
  | some digest =>
    dsimp only
    generalize deadLetterOf jobId row failureAttempts errorClass errorMessage digest
      (db.envelopes.lookup EnvelopeRow.jobId jobId) now = letter
    obtain ⟨writes, hrun, hwrites⟩ := D1.runAt_prepareSyncJobCompletion now row
      (deadReport errorMessage now) (fun syncUpdate => D1.Call.commit
        (.setJobDead failureAttempts errorClass errorMessage now jobId ::
          .upsertDeadLetter letter :: .setEnvelopeStatus .dead now jobId :: syncUpdate) .ack) db
    have hsync := hwrites { db with
      jobs := db.jobs.update (fun r => r.jobId = jobId)
        (JobRow.setDead failureAttempts errorClass errorMessage now)
      deadLetters := db.deadLetters.upsert letter letter.rewrite
      envelopes := db.envelopes.update (fun e => e.jobId = jobId)
        (EnvelopeRow.setStatus .dead now) } rfl
    have hall : (D1.Write.setJobDead failureAttempts errorClass errorMessage now jobId ::
        .upsertDeadLetter letter :: .setEnvelopeStatus .dead now jobId ::
        writes).foldlM D1.Write.apply db = some _ := hsync
    rw [hrun, D1.runAt_commit hall]
    rfl

/-- A finish that succeeds: the same. -/
theorem finishDone_agree (summary : Option Fields)
    (hl : db.jobs.lookup JobRow.jobId jobId = some row) (hlive : ¬ row.status.isTerminal = true) :
    Backend.d1.finishJob now jobId (.done summary) db =
      Backend.postgres.finishJob now jobId (.done summary) db := by
  obtain ⟨writes, hrun, hwrites⟩ := D1.runAt_prepareSyncJobCompletion now row
    (doneReport summary now) (fun syncUpdate => D1.Call.commit
      (.setJobDone (summary.getD []) now jobId :: .deleteEnvelope jobId :: syncUpdate) .ack) db
  have hsync := hwrites { db with
    jobs := db.jobs.update (fun r => r.jobId = jobId) (JobRow.setDone (summary.getD []) now)
    envelopes := db.envelopes.delete fun e => e.jobId = jobId } rfl
  have hall : (D1.Write.setJobDone (summary.getD []) now jobId :: .deleteEnvelope jobId ::
      writes).foldlM D1.Write.apply db = some _ := hsync
  simp only [Backend.finishJob, D1.finishJob, Postgres.finishJob, D1.runAt_selectJobById, hl,
    if_neg hlive, D1.runAt_now]
  rw [hrun, D1.runAt_commit hall]
  rfl

theorem finishFailed_agree (errorClass : Option JobErrorClass)
    (errorMessage payloadDigest : Option String)
    (hl : db.jobs.lookup JobRow.jobId jobId = some row) (hlive : ¬ row.status.isTerminal = true)
    (hsafe : row.failureAttempts ≤ maxSafeInteger) :
    Backend.d1.finishJob now jobId (.failed errorClass errorMessage payloadDigest) db =
      Backend.postgres.finishJob now jobId (.failed errorClass errorMessage payloadDigest) db := by
  have hnumber : safeInteger row.failureAttempts = .ok row.failureAttempts := if_pos hsafe
  simp only [Backend.finishJob, D1.finishJob, Postgres.finishJob, D1.runAt_selectJobById, hl,
    if_neg hlive, D1.runAt_now, Postgres.failJob, hnumber, decideJobTransition_failed]
  by_cases hdies : row.dies errorClass = true
  · rw [if_neg (by simp [hdies]), if_neg (by simp [hdies])]
    exact buryJob_agree _ _ _ _
  · rw [if_pos (by simp [hdies]), if_pos (by simp [hdies])]
    rfl

theorem finishJob_agree (jobId : String) (input : JobResult)
    (h : ∀ row ∈ db.jobs.lookup JobRow.jobId jobId, row.status.isTerminal = false →
      ∀ errorClass errorMessage payloadDigest,
        input = .failed errorClass errorMessage payloadDigest →
          row.failureAttempts ≤ maxSafeInteger) :
    Backend.d1.finishJob now jobId input db = Backend.postgres.finishJob now jobId input db := by
  cases hl : db.jobs.lookup JobRow.jobId jobId with
  | none =>
    simp only [Backend.finishJob, D1.finishJob, Postgres.finishJob, D1.runAt_selectJobById, hl]
    rfl
  | some row =>
    by_cases hterminal : row.status.isTerminal = true
    · simp only [Backend.finishJob, D1.finishJob, Postgres.finishJob, D1.runAt_selectJobById, hl,
        if_pos hterminal]
      rfl
    · cases input with
      | done summary => exact finishDone_agree summary hl hterminal
      | failed errorClass errorMessage payloadDigest =>
        refine finishFailed_agree errorClass errorMessage payloadDigest hl hterminal ?_
        exact h row hl (by simpa using hterminal) errorClass errorMessage payloadDigest rfl
      | deferred reason retryAt =>
        simp only [Backend.finishJob, D1.finishJob, Postgres.finishJob, D1.runAt_selectJobById, hl,
          if_neg hterminal, D1.runAt_now]
        rfl
      | uncertain reason =>
        simp only [Backend.finishJob, D1.finishJob, Postgres.finishJob, D1.runAt_selectJobById, hl,
          if_neg hterminal, D1.runAt_now]
        rfl

end FinishJob

/-! ## Rate limits -/

/-- PostgreSQL counts in the statement, D1 from the row that it has read. -/
theorem consumeRateLimit_agree (input : RateLimitInput) :
    Backend.d1.consumeRateLimit now input db = Backend.postgres.consumeRateLimit now input db := by
  have hmet : (fun row : RateLimitRow => decide (row.key = (input.scope, input.bucketKey))) =
      fun row => decide (row.scope = input.scope) && decide (row.bucketKey = input.bucketKey) := by
    funext row
    simp [RateLimitRow.key]
  have hfind : db.rateLimits.rows.find? (fun row : RateLimitRow =>
      row.scope = input.scope && row.bucketKey = input.bucketKey) =
        db.rateLimits.lookup RateLimitRow.key (input.scope, input.bucketKey) := by
    rw [Table.lookup, hmet]
  simp only [Backend.consumeRateLimit, D1.consumeRateLimit, Postgres.consumeRateLimit, hfind,
    Prog.exec_call, D1.serveLimits]
  cases hl : db.rateLimits.lookup RateLimitRow.key (input.scope, input.bucketKey) with
  | none =>
    obtain ⟨rateLimits, hins⟩ : ∃ rateLimits, db.rateLimits.insert?
        (RateLimitRow.first input now now) = some rateLimits :=
      Table.insert?_of_lookup_eq_none (fun row => (RateLimitRow.conflict_iff row _).mp) hl
    simp only [RateLimitRow.first] at hins
    simp [D1.decideLimit, D1.startWindow, D1.serveLimits, Table.upsert, RateLimitRow.first, hins,
      transactOn]
  | some current =>
    have hins : db.rateLimits.insert? (RateLimitRow.first input now now) = none :=
      Table.insert?_of_lookup_eq_some RateLimitRow.isKey_key hl
    simp only [RateLimitRow.first] at hins
    dsimp only
    rw [hins]
    simp only [D1.decideLimit]
    split_ifs with hexpired hspent
    · simp [D1.startWindow, D1.serveLimits, Table.upsert, RateLimitRow.first, hins, transactOn,
        Constrained.conflict]
    · rfl
    · -- One row has the key, so its count is the one that was read.
      have hcount : db.rateLimits.update (fun row => row.key = (input.scope, input.bucketKey))
          (RateLimitRow.setCount (current.count + 1) now) =
          db.rateLimits.update (fun row => row.key = (input.scope, input.bucketKey))
            (RateLimitRow.increment now) := by
        refine Table.update_congr fun row hrow hkey => ?_
        have hsame : db.rateLimits.lookup RateLimitRow.key (input.scope, input.bucketKey) =
            some row :=
          (Table.lookup_eq_some RateLimitRow.isKey_key).mpr ⟨hrow, of_decide_eq_true hkey⟩
        rw [Option.some.inj (hsame.symm.trans hl)]
        rfl
      rw [hmet] at hcount
      simp only [D1.countUse, Prog.exec_call, Prog.exec_ret, D1.serveLimits, hmet, hcount,
        transactOn]

/-- The version that D1 has read is still there, so its first attempt is its last. -/
theorem consumeRateLimits_agree (inputs : List RateLimitInput) :
    Backend.d1.consumeRateLimits now inputs db =
      Backend.postgres.consumeRateLimits now inputs db := by
  simp only [Backend.consumeRateLimits, D1.consumeRateLimits, Postgres.consumeRateLimits]
  split
  · rfl
  show (D1.decideBatch inputs (db.rateLimitBatches.lookup RateLimitBatchRow.scope
    (Postgres.batchScope inputs)) now (D1.attemptBatch inputs 4)).exec (D1.serveLimits now) db = _
  -- nobody writes in between, so D1's first attempt settles it
  generalize D1.attemptBatch inputs 4 = again
  dsimp only [D1.decideBatch]
  cases hrow : db.rateLimitBatches.lookup RateLimitBatchRow.scope (Postgres.batchScope inputs) with
  | none =>
    dsimp only
    cases hdecide : decideRateLimitBatch inputs
        ((Option.map RateLimitBatchRow.state none).getD []) now with
    | rejected counts nextStates retryAt => rfl
    | allowed counts nextStates =>
      obtain ⟨batches, hins⟩ : ∃ batches, db.rateLimitBatches.insert?
          (RateLimitBatchRow.first (Postgres.batchScope inputs) nextStates now) = some batches :=
        Table.insert?_of_lookup_eq_none (fun row h => of_decide_eq_true h) hrow
      have hpg := hins
      simp only [RateLimitBatchRow.first] at hpg
      simp [D1.writeBatch, D1.serveLimits, D1.insertBatch, hins, hpg, transactOn]
  | some row =>
    dsimp only
    cases hdecide : decideRateLimitBatch inputs
        ((Option.map RateLimitBatchRow.state (some row)).getD []) now with
    | rejected counts nextStates retryAt => rfl
    | allowed counts nextStates =>
      -- the version in the WHERE is the one just read, so the update meets its row
      have hcount : db.rateLimitBatches.rows.countP (fun r =>
          decide (r.scope = Postgres.batchScope inputs) && decide (r.version = row.version)) =
            1 := by
        rw [Table.countP_key RateLimitBatchRow.isKey_scope, hrow]
        simp
      have hupdate : db.rateLimitBatches.update (fun r =>
          decide (r.scope = Postgres.batchScope inputs) && decide (r.version = row.version))
            (RateLimitBatchRow.replace nextStates (row.version + 1) now) =
          db.rateLimitBatches.update (fun r => r.scope = Postgres.batchScope inputs)
            (RateLimitBatchRow.setState nextStates now) := by
        refine Table.ext (List.map_congr_left fun r hr => ?_)
        by_cases hscope : r.scope = Postgres.batchScope inputs
        · have hsame : db.rateLimitBatches.lookup RateLimitBatchRow.scope
              (Postgres.batchScope inputs) = some r :=
            (Table.lookup_eq_some RateLimitBatchRow.isKey_scope).mpr ⟨hr, hscope⟩
          obtain rfl := Option.some.inj (hsame.symm.trans hrow)
          simp [hscope, RateLimitBatchRow.replace, RateLimitBatchRow.setState]
        · simp [hscope]
      simp only [D1.writeBatch, Prog.exec_call, D1.serveLimits, D1.updateBatch, hcount, hupdate]
      rfl

/-! ## Replays -/

section Replay

variable {jobId : String} {input : ReplayInput}

/-- The envelope that the letter names, opened on either side. -/
theorem openEnvelope_eq {envelopeJobId : String}
    (hletter : (db.deadLetters.lookup DeadLetterRow.jobId jobId).bind DeadLetterRow.envelopeJobId =
      some envelopeJobId) (hnamed : envelopeJobId ≠ "") :
    Postgres.openEnvelope env jobId db =
      (D1.envelopeJob env jobId (db.envelopes.lookup EnvelopeRow.jobId envelopeJobId)).map
        fun job => (job, envelopeJobId) := by
  unfold Postgres.openEnvelope D1.envelopeJob
  rw [hletter]
  split
  · next h => cases h
  · next h => exact absurd (Option.some.inj h) hnamed
  · next named _ h =>
    obtain rfl := Option.some.inj h
    cases db.envelopes.lookup EnvelopeRow.jobId envelopeJobId with
    | none => rfl
    | some envelope =>
      dsimp only
      split_ifs with hdead
      · rfl
      · cases (env.decryptJson envelope.ciphertext).bind (parseQueueJob env.zod) with
        | none => rfl
        | some job =>
          dsimp only
          split_ifs <;> rfl

theorem decideLetter_named {envelopeJobId : String} {letter : Option DeadLetterRow}
    (hletter : letter.bind DeadLetterRow.envelopeJobId = some envelopeJobId)
    (hnamed : envelopeJobId ≠ "") :
    D1.decideLetter env jobId input letter =
      .call (.selectEnvelope envelopeJobId) (D1.decideEnvelope env jobId input) := by
  unfold D1.decideLetter
  rw [hletter]
  split
  · next h => cases h
  · next h => exact absurd (Option.some.inj h) hnamed
  · next h => rw [Option.some.inj h]

/-- The writes of a replay, in a batch and one after the other. -/
theorem publishReplay_agree (job : QueueJob)
    (hop : db.replayOperations.lookup ReplayOperationRow.idempotencyKey input.idempotencyKey =
      none) :
    outcome ((D1.publishReplay env jobId input.idempotencyKey job).exec (D1.serveReplay now) db) =
      outcome (transact db
        (match db.replayOperations.insert?
            (Postgres.replayOperation env now jobId input.idempotencyKey) with
          | none => .error duplicateKey
          | some replayOperations =>
            Postgres.publishReplay env now jobId input.idempotencyKey job jobId
              { db with replayOperations })) := by
  simp only [D1.publishReplay, D1.runBatch, Prog.exec_call]
  rcases Option.eq_none_or_eq_some (db.replayOperations.insert?
    (Postgres.replayOperation env now jobId input.idempotencyKey)) with hins | ⟨operations, hins⟩
  · have hbatch : ∀ message, D1.publishBatch
        (Postgres.replayOperation env now jobId input.idempotencyKey) message db = none :=
      fun message => by rw [D1.publishBatch, hins]; rfl
    simp [D1.serveReplay, hbatch, hins, hop, D1.settleConcurrent, transact]
  · simp only [hins, Postgres.publishReplay, insertUnless?_staged_eq]
    simp [D1.serveReplay, D1.publishBatch, hins, transact]
    rfl

/-- The job has no effect that is done beside one that is uncertain. -/
def OneEnding (jobId : String) (effects : Table EffectRow) : Prop :=
  ∀ effect ∈ effects.rows, ∀ effect' ∈ effects.rows, effect.jobId = jobId → effect'.jobId = jobId →
    effect.status = .done → effect'.status ≠ .uncertain

instance (jobId : String) (effects : Table EffectRow) : Decidable (OneEnding jobId effects) :=
  inferInstanceAs (Decidable (∀ effect ∈ effects.rows, ∀ effect' ∈ effects.rows,
    effect.jobId = jobId → effect'.jobId = jobId → effect.status = .done →
      effect'.status ≠ .uncertain))

/-- An effect of the job that D1 finds by its status. -/
theorem exists_find? {effects : Table EffectRow} {effect : EffectRow} (hmem : effect ∈ effects)
    (hid : effect.jobId = jobId) :
    ∃ found, (effects.rows.find? fun e => e.jobId = jobId && e.status = effect.status) =
      some found ∧ found.status = effect.status := by
  have hsome : (effects.rows.find? fun e =>
      e.jobId = jobId && e.status = effect.status).isSome = true :=
    List.find?_isSome.mpr ⟨effect, hmem, by simp [hid]⟩
  obtain ⟨found, hfound⟩ := Option.isSome_iff_exists.mp hsome
  have hmet := List.find?_some hfound
  simp only [Bool.and_eq_true, decide_eq_true_eq] at hmet
  exact ⟨found, hfound, hmet.2⟩

/-- Whichever effect PostgreSQL gives, its status is that of the one that D1's index gives. -/
theorem terminalEffect_agree (env : Env) (h : OneEnding jobId db.effects) :
    ((D1.terminalEffect jobId db.effects).bind fun effect =>
        Postgres.terminalEffectReason effect.status) =
      (Postgres.terminalEffect env jobId db.effects).bind fun effect =>
        Postgres.terminalEffectReason effect.status := by
  have hfind_none : ∀ status, (∀ effect ∈ db.effects, effect.jobId = jobId →
      effect.status ≠ status) →
        (db.effects.rows.find? fun e => e.jobId = jobId && e.status = status) = none := by
    intro status hother
    refine List.find?_eq_none.mpr fun effect hmem hmet => ?_
    simp only [Bool.and_eq_true, decide_eq_true_eq] at hmet
    exact hother effect hmem hmet.1 hmet.2
  unfold D1.terminalEffect
  cases hpg : Postgres.terminalEffect env jobId db.effects with
  | none =>
    have hlive := Postgres.terminalEffect_eq_none_iff.mp hpg
    rw [hfind_none .done, hfind_none .uncertain]
    · rfl
    · intro effect hmem hid hs
      have := hlive effect hmem hid
      rw [hs] at this
      cases this
    · intro effect hmem hid hs
      have := hlive effect hmem hid
      rw [hs] at this
      cases this
  | some effect =>
    obtain ⟨hmem, hid, hterminal⟩ := Postgres.terminalEffect_mem hpg
    obtain ⟨found, hfound, hstatus⟩ := exists_find? hmem hid
    cases hs : effect.status with
    | done =>
      rw [hs] at hfound hstatus
      rw [hfound]
      simp [hs, hstatus]
    | uncertain =>
      rw [hs] at hfound hstatus
      rw [hfind_none .done fun effect' hmem' hid' hs' => h effect' hmem' effect hmem hid' hid hs' hs,
        hfound]
      simp [hs, hstatus]
    | processing | failed =>
      rw [hs] at hterminal
      cases hterminal

/--
The checks come in one order, and find the same status of an effect; the writes meet the envelope
that was checked if it is the job's own.
-/
theorem replayDeadLetter_agree (hending : OneEnding jobId db.effects)
    (h : input.dryRun = false → ∀ letter ∈ db.deadLetters.lookup DeadLetterRow.jobId jobId,
      ∀ envelopeJobId ∈ letter.envelopeJobId, envelopeJobId = "" ∨ envelopeJobId = jobId) :
    outcome (Backend.d1.replayDeadLetter env now jobId input db) =
      outcome (Backend.postgres.replayDeadLetter env now jobId input db) := by
  simp only [Backend.replayDeadLetter, D1.replayDeadLetter, Prog.exec_call, D1.serveReplay,
    Postgres.replayDeadLetter, Postgres.terminalReason, D1.decideJob]
  cases (db.jobs.lookup JobRow.jobId jobId).bind fun job =>
      Postgres.terminalJobReason job.status with
  | some reason => rfl
  | none =>
    simp only [Prog.exec_call, D1.serveReplay, D1.decideEffect, terminalEffect_agree env hending]
    cases (Postgres.terminalEffect env jobId db.effects).bind fun effect =>
        Postgres.terminalEffectReason effect.status with
    | some reason => rfl
    | none =>
      simp only [Prog.exec_call, D1.serveReplay, D1.decideOperation]
      cases hop : db.replayOperations.lookup ReplayOperationRow.idempotencyKey
          input.idempotencyKey with
      | some operation =>
        dsimp only
        split_ifs <;> rfl
      | none =>
        simp only [Prog.exec_call, D1.serveReplay]
        cases hletter : (db.deadLetters.lookup DeadLetterRow.jobId jobId).bind
            DeadLetterRow.envelopeJobId with
        | none => simp [Postgres.openEnvelope, D1.decideLetter, hletter, transact]
        | some envelopeJobId =>
          by_cases hnamed : envelopeJobId = ""
          · subst hnamed
            simp [Postgres.openEnvelope, D1.decideLetter, hletter, transact]
          · rw [openEnvelope_eq hletter hnamed, decideLetter_named hletter hnamed, Prog.exec_call,
              D1.serveReplay, D1.decideEnvelope]
            cases D1.envelopeJob env jobId
                (db.envelopes.lookup EnvelopeRow.jobId envelopeJobId) with
            | error reason => rfl
            | ok job =>
              dsimp only [Except.map]
              split_ifs with hdry
              · rfl
              · obtain ⟨letter, hl, hid⟩ := Option.bind_eq_some_iff.mp hletter
                -- D1 writes to the job's own envelope, PostgreSQL to the one the letter names
                rcases h (by simpa using hdry) letter hl envelopeJobId hid with hempty | hown
                · exact absurd hempty hnamed
                · subst hown
                  exact publishReplay_agree job hop

end Replay

/-! ## The inbox -/

theorem stage_foldlM (messages : List Postgres.InboxMessage) (inbox : Table InboxRow) :
    messages.foldlM (Postgres.stageMessage now) inbox =
      .ok (messages.foldl (D1.insertMessage now) inbox) := by
  induction messages generalizing inbox with
  | nil => rfl
  | cons message messages ih =>
    have hstage : Postgres.stageMessage now inbox message =
        .ok (D1.insertMessage now inbox message) := by
      rw [Postgres.stageMessage, insertUnless?_staged_eq]
      rfl
    rw [List.foldlM_cons, hstage, List.foldl_cons]
    exact ih _

theorem stage_agree (messages : List Postgres.InboxMessage) :
    Backend.d1.stage collation now messages db =
      Backend.postgres.stage collation now messages db := by
  simp only [Backend.stage, Postgres.stage, stage_foldlM]
  cases messages with
  | nil => rfl
  | cons message messages => rfl

theorem settle_agree (settlement : Postgres.InboxSettlement) :
    Backend.d1.settle collation now settlement db =
      Backend.postgres.settle collation now settlement db := by
  simp only [Backend.settle, Backend.runInbox, D1.settle, Postgres.settle]
  split
  · rfl
  · simp only [Prog.exec_call, D1.serveInbox]
    split
    · next hempty =>
      obtain ⟨hacks, hretries⟩ := hempty
      simp only [List.isEmpty_iff] at hacks hretries
      simp only [hacks, hretries]
      rfl
    · rfl

/-- Where no lease of PostgreSQL's loop fails, D1's loop leases the same rows with the same ids. -/
theorem exec_leaseRows (collation : Collation) {leaseUntil : Instant}
    (pairs : List (InboxRow × String)) (inbox final : Table InboxRow)
    (messages acc : List Postgres.InboxLease)
    (hmem : ∀ p ∈ pairs, p.1 ∈ inbox ∧ p.1.status = .queued)
    (hids : (pairs.map fun p => p.1.messageId).Nodup)
    (h : Postgres.leaseCandidates now leaseUntil pairs inbox = .ok (messages, final)) :
    (D1.leaseRows now leaseUntil pairs acc).exec (D1.serveInbox collation now) inbox =
      (final, .ok { backlogCount := final.rows.length, messages := acc ++ messages }) := by
  induction pairs generalizing inbox messages acc with
  | nil =>
    obtain ⟨rfl, rfl⟩ := Prod.mk.inj (Except.ok.inj h)
    rw [List.append_nil]
    rfl
  | cons pair pairs ih =>
    obtain ⟨candidate, leaseId⟩ := pair
    obtain ⟨hcandidate, hqueued⟩ : candidate ∈ inbox ∧ candidate.status = .queued :=
      hmem (candidate, leaseId) (by simp)
    rw [List.map_cons, List.nodup_cons] at hids
    have hfind := Postgres.find?_candidate hcandidate hqueued
    -- The message id names one row, and it is in the queue.
    have hcount : inbox.rows.countP (D1.isQueued candidate.messageId) = 1 := by
      have hl : inbox.lookup InboxRow.messageId candidate.messageId = some candidate :=
        (Table.lookup_eq_some InboxRow.isKey_messageId).mpr ⟨hcandidate, rfl⟩
      show inbox.rows.countP (fun row => decide (row.messageId = candidate.messageId) &&
        decide (row.status = .queued)) = 1
      rw [Table.countP_key InboxRow.isKey_messageId, hl]
      simp [hqueued]
    rw [Postgres.leaseCandidates] at h
    simp only [hfind] at h
    cases hupdated : inbox.update?
        (fun row => row.messageId = candidate.messageId && row.status = .queued)
        (InboxRow.lease leaseId leaseUntil now) with
    | none => simp [hupdated] at h
    | some updated =>
      simp only [hupdated] at h
      cases hrest : Postgres.leaseCandidates now leaseUntil pairs updated with
      | error text => simp [hrest] at h
      | ok rest =>
        obtain ⟨messages', final'⟩ := rest
        simp only [hrest] at h
        obtain ⟨rfl, rfl⟩ := Prod.mk.inj (Except.ok.inj h)
        have hleased : D1.leaseMessage leaseId leaseUntil now candidate.messageId inbox =
            (updated, some 1) := by
          have hup : inbox.update? (D1.isQueued candidate.messageId)
              (InboxRow.lease leaseId leaseUntil now) = some updated := hupdated
          rw [D1.leaseMessage, hup, hcount]
        have htail := ih updated messages' (acc ++ [D1.reportLease leaseId candidate])
          (fun p hp => by
            obtain ⟨hpm, hpq⟩ := hmem p (by simp [hp])
            have hother : p.1.messageId ≠ candidate.messageId := fun heq =>
              hids.1 (List.mem_map.mpr ⟨p, hp, heq⟩)
            exact ⟨Table.mem_update?_of_not hupdated hpm (by simp [hother]), hpq⟩)
          hids.2 hrest
        rw [List.append_assoc] at htail
        rw [D1.leaseRows, Prog.exec_call]
        simp only [D1.serveInbox, hleased]
        exact htail

/-- A pull whose lease ids are new. -/
theorem pull_agree (leaseIds : Nat → String) (input : Postgres.PullInput)
    (hleases : ((Postgres.chosen collation now leaseIds input db.inbox).map Prod.snd).Nodup)
    (hfresh : ∀ p ∈ Postgres.chosen collation now leaseIds input db.inbox,
      ∀ row ∈ (Postgres.releaseExpired now db.inbox).rows, row.leaseId ≠ some p.2) :
    Backend.d1.pull collation now leaseIds input db =
      Backend.postgres.pull collation now leaseIds input db := by
  have hmem : ∀ p ∈ Postgres.chosen collation now leaseIds input db.inbox,
      p.1 ∈ Postgres.releaseExpired now db.inbox ∧ p.1.status = .queued := fun p hp =>
    ⟨(Postgres.mem_chosen hp).1.1, (Postgres.mem_chosen hp).1.2.1⟩
  obtain ⟨final, hpg, -, -⟩ := Postgres.leaseCandidates_eq now (now + input.visibilityTimeoutMs)
    (Postgres.chosen collation now leaseIds input db.inbox)
    (Postgres.releaseExpired now db.inbox) hmem Postgres.chosen_nodup hleases hfresh
  have hd1 := exec_leaseRows collation _ _ _ _ [] hmem Postgres.chosen_nodup hpg
  have hrun : (D1.pull leaseIds input).exec (D1.serveInbox collation now) db.inbox = _ := hd1
  unfold Postgres.chosen at hpg hrun
  simp only [Backend.pull, Backend.runInbox, hrun, Postgres.pull, hpg, transactOn,
    List.nil_append]

/-! ## Runs -/

/--
The states in which a call does the same on both backends: the number that it reads or writes is
safe, the lease ids that it uses are new, and the job that it replays has one kind of ended effects
and a dead letter with no envelope but its own.
-/
def Agreeable (env : Env) (collation : Collation) (db : Db) : Instant × ServiceCall → Prop
  | (now, .claimJob _ input) =>
    ∀ job ∈ parseQueueJob env.zod input, ∀ row ∈ db.jobs.lookup JobRow.dedupeKey job.dedupeKey,
      row.Claimable now → row.attempts < maxSafeInteger
  | (_, .finishJob jobId (.failed ..)) =>
    ∀ row ∈ db.jobs.lookup JobRow.jobId jobId, row.status.isTerminal = false →
      row.failureAttempts ≤ maxSafeInteger
  | (_, .replayDeadLetter jobId input) =>
    OneEnding jobId db.effects ∧
      (input.dryRun = false → ∀ letter ∈ db.deadLetters.lookup DeadLetterRow.jobId jobId,
        ∀ envelopeJobId ∈ letter.envelopeJobId, envelopeJobId = "" ∨ envelopeJobId = jobId)
  | (now, .pull leaseIds input) =>
    ((Postgres.chosen collation now leaseIds input db.inbox).map Prod.snd).Nodup ∧
      ∀ p ∈ Postgres.chosen collation now leaseIds input db.inbox,
        ∀ row ∈ (Postgres.releaseExpired now db.inbox).rows, row.leaseId ≠ some p.2
  | _ => True

theorem JobRow.claimable_iff (now : Instant) (row : JobRow) :
    (row.status.isTerminal = false ∧
      (row.status = .deferred → row.deferredAfter now = false) ∧
      (row.status = .processing → isStale row.updatedAt now = true)) ↔ row.Claimable now :=
  ⟨fun ⟨live, due, free⟩ => ⟨live, due, free⟩, fun h => ⟨h.live, h.due, h.free⟩⟩

instance (now : Instant) (row : JobRow) : Decidable (row.Claimable now) :=
  decidable_of_iff _ (JobRow.claimable_iff now row)

instance decidableAgreeable (env : Env) (collation : Collation) (db : Db) :
    (input : Instant × ServiceCall) → Decidable (Agreeable env collation db input)
  | (now, .claimJob _ input) =>
    inferInstanceAs (Decidable (∀ job ∈ parseQueueJob env.zod input,
      ∀ row ∈ db.jobs.lookup JobRow.dedupeKey job.dedupeKey,
        row.Claimable now → row.attempts < maxSafeInteger))
  | (_, .finishJob jobId (.failed ..)) =>
    inferInstanceAs (Decidable (∀ row ∈ db.jobs.lookup JobRow.jobId jobId,
      row.status.isTerminal = false → row.failureAttempts ≤ maxSafeInteger))
  | (_, .replayDeadLetter jobId input) =>
    inferInstanceAs (Decidable (OneEnding jobId db.effects ∧ (input.dryRun = false →
      ∀ letter ∈ db.deadLetters.lookup DeadLetterRow.jobId jobId,
        ∀ envelopeJobId ∈ letter.envelopeJobId, envelopeJobId = "" ∨ envelopeJobId = jobId)))
  | (now, .pull leaseIds input) =>
    inferInstanceAs (Decidable (_ ∧
      ∀ p ∈ Postgres.chosen collation now leaseIds input db.inbox,
        ∀ row ∈ (Postgres.releaseExpired now db.inbox).rows, row.leaseId ≠ some p.2))
  | (_, .finishJob _ (.done _)) | (_, .finishJob _ (.deferred ..))
  | (_, .finishJob _ (.uncertain _)) | (_, .claimEffect _) | (_, .finishEffect ..)
  | (_, .consumeRateLimit _) | (_, .consumeRateLimits _) | (_, .stage _) | (_, .settle _) =>
    inferInstanceAs (Decidable True)

/-- A run has the same replies on both backends, and leaves the same tables. -/
def BackendsAgree (env : Env) (collation : Collation) (db : Db)
    (calls : List (Instant × ServiceCall)) : Prop :=
  (serviceMachine env collation .d1).replies db calls =
      (serviceMachine env collation .postgres).replies db calls ∧
    (serviceMachine env collation .d1).run db calls =
      (serviceMachine env collation .postgres).run db calls

instance (env : Env) (collation : Collation) (db : Db) (calls : List (Instant × ServiceCall)) :
    Decidable (BackendsAgree env collation db calls) := inferInstanceAs (Decidable (_ ∧ _))

/-- One call, by one lemma for each service. -/
theorem serviceMachine_step (db : Db) (input : Instant × ServiceCall)
    (h : Agreeable env collation db input) :
    (serviceMachine env collation .d1).step db input =
      (serviceMachine env collation .postgres).step db input := by
  obtain ⟨now, call⟩ := input
  cases call with
  | claimJob iv input => exact congrArg (Prod.map id _) (claimJob_agree iv input h)
  | finishJob jobId result =>
    refine congrArg (fun served => Prod.map id _ (outcome served)) (finishJob_agree jobId result ?_)
    rintro row hrow hlive errorClass errorMessage payloadDigest rfl
    exact h row hrow hlive
  | claimEffect input =>
    exact congrArg (fun served => Prod.map id _ (outcome served))
      (claimEffect_backend .d1 now input db)
  | finishEffect effectKey result =>
    exact congrArg (fun served => Prod.map id _ (outcome served))
      (finishEffect_backend .d1 now effectKey result db)
  | consumeRateLimit input =>
    exact congrArg (fun served => Prod.map id _ (outcome served)) (consumeRateLimit_agree input)
  | consumeRateLimits inputs =>
    exact congrArg (fun served => Prod.map id _ (outcome served)) (consumeRateLimits_agree inputs)
  | replayDeadLetter jobId input => exact congrArg (Prod.map id _) (replayDeadLetter_agree h.1 h.2)
  | stage messages =>
    exact congrArg (fun served => Prod.map id _ (outcome served)) (stage_agree messages)
  | pull leaseIds input =>
    exact congrArg (fun served => Prod.map id _ (outcome served))
      (pull_agree leaseIds input h.1 h.2)
  | settle settlement =>
    exact congrArg (fun served => Prod.map id _ (outcome served)) (settle_agree settlement)

/-- From the same tables the two backends go in lockstep, through states that let them. -/
theorem backends_agree (env : Env) (collation : Collation) (db : Db)
    (calls : List (Instant × ServiceCall))
    (h : (serviceMachine env collation .postgres).Admits (Agreeable env collation) db calls) :
    BackendsAgree env collation db calls := by
  have hsame := Machine.lockstep (M := serviceMachine env collation .postgres)
    (N := serviceMachine env collation .d1) (fun db input hstep =>
      (serviceMachine_step db input hstep).symm) h
  exact ⟨hsame.1.symm, hsame.2.symm⟩

/-! ## Sample runs -/

namespace AgreeSample

open Sample

/-- An article that dies, comes back by a replay and is done. -/
def recovered : List (Instant × ServiceCall) :=
  [(0, .consumeRateLimits [⟨"2026-01-05", 20, "article:daily", 86400⟩]),
    (1000, .claimJob iv (articleJob firstId).toJson),
    (2000, .claimEffect ⟨"git", "effect-1", firstId⟩),
    (3000, .finishEffect "effect-1" ⟨.failed, some .permanent, some "refused"⟩),
    (4000, .finishJob firstId (.failed (some .permanent) (some "refused") none)),
    (5000, .replayDeadLetter firstId ⟨false, replayKey⟩),
    (6000, .stage [⟨"m", .str "body", 6000⟩]),
    (7000, .pull leaseIds ⟨2, 30000⟩),
    (8000, .claimJob iv (articleJob firstId).toJson),
    (9000, .finishJob firstId (.done none)),
    (10000, .settle ⟨[leaseIds 0], [⟨some 60, leaseIds 1⟩]⟩),
    (11000, .consumeRateLimit ⟨"weibo", 1, "collect", 3600⟩)]

/-- A job that has been claimed and has failed as often as is given. -/
def triedJob (attempts failureAttempts : Nat) : Db :=
  { (∅ : Db) with
    jobs := ⟨[{ JobRow.claimed (textJob firstId) 0 with
      status := .failed, attempts, failureAttempts }], List.pairwise_singleton _ _⟩ }

/-- A dead letter that names the envelope of another job, with its own job in it. -/
def strayLetter : Db :=
  { (∅ : Db) with
    envelopes := ⟨[{
      EnvelopeRow.active Sample.env (articleJob firstId) (1 :: iv ++ sealedArticle) 0 with
      jobId := secondId, status := .dead }], List.pairwise_singleton _ _⟩
    deadLetters := ⟨[{
      jobId := firstId, dedupeKey := "article:1", kind := .job .dispatchItem
      itemKind := some .article, attempts := 1, errorClass := .permanent
      errorMessage := "refused", payloadDigest := jobDigest, envelopeJobId := some secondId
      createdAt := 0 }], List.pairwise_singleton _ _⟩ }

/-- A job with an effect that is uncertain, and a later one that is done. -/
def twoEndings : Db :=
  { (∅ : Db) with
    effects := ⟨[
      { EffectRow.claimed ⟨"cubox", "effect-1", firstId⟩ 0 with status := .uncertain },
      { EffectRow.claimed ⟨"flomo", "effect-2", firstId⟩ 0 with status := .done }], by decide⟩ }

/-- A pull of two messages that draws one lease id twice. -/
def drawnTwice : List (Instant × ServiceCall) :=
  [(0, .stage [⟨"m", .str "body", 0⟩, ⟨"n", .str "body", 0⟩]),
    (1000, .pull (fun _ => leaseIds 0) ⟨2, 30000⟩)]

end AgreeSample

open AgreeSample in
theorem backends_agree_recovered : BackendsAgree Sample.env codePoints ∅ recovered :=
  backends_agree _ _ _ _ (by decide +kernel)

open Sample AgreeSample in
/--
PostgreSQL refuses a number beyond the safe range where D1 claims, and fails, on; it opens the
envelope that the letter names where D1 opens the job's; it gives any of the effects that have ended
where D1's index gives one that is done; and it undoes a pull whose lease id is taken where D1 keeps
the leases that it has written.
-/
theorem backends_part :
    ¬ BackendsAgree Sample.env codePoints (triedJob maxSafeInteger 0)
        [(1000, .claimJob iv (textJob firstId).toJson)] ∧
      ¬ BackendsAgree Sample.env codePoints (triedJob 1 (maxSafeInteger + 1))
        [(1000, .finishJob firstId (.failed (some .retryable) none (some jobDigest)))] ∧
      ¬ BackendsAgree Sample.env codePoints strayLetter
        [(1000, .replayDeadLetter firstId ⟨false, replayKey⟩)] ∧
      ¬ BackendsAgree Sample.env codePoints twoEndings
        [(1000, .replayDeadLetter firstId ⟨true, replayKey⟩)] ∧
      ¬ BackendsAgree Sample.env codePoints ∅ drawnTwice := by
  decide +kernel

end InboxServer
