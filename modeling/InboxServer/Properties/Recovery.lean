import InboxServer.Properties.FailureBudget
import InboxServer.Properties.Inbox
import InboxServer.Properties.ReplayOnce
import InboxServer.Properties.Sample

/-!
# Dead articles and their envelopes

An article is sealed into an envelope under the job id of its first claim; a later claim under
another job id binds the row to that id and leaves the envelope where it is.

* `dead_articles_recoverable_iff` — every dead article can be replayed in exactly the runs in which
  an article only dies under a job id that has an envelope
* `orphaned_article` — a job that was claimed under a second id dies without one
-/

namespace InboxServer

open Infra

/-! ## Recoverable databases -/

/-- A replay of the job that is not a dry run is published. -/
def Publishes (env : Env) (now : Instant) (jobId idempotencyKey : String) (db : Db) : Prop :=
  (transact db (Postgres.replayDeadLetter env now jobId ⟨false, idempotencyKey⟩ db)).2 =
    .ok Postgres.publishedReply

instance (env : Env) (now : Instant) (jobId idempotencyKey : String) (db : Db) :
    Decidable (Publishes env now jobId idempotencyKey db) :=
  inferInstanceAs (Decidable (_ = _))

/-- The dead job has a letter that names a dead envelope of its key, and can be replayed. -/
structure RecoverableRow (env : Env) (db : Db) (row : JobRow) : Prop where
  envelope : ∃ letter envelope, db.deadLetters.lookup DeadLetterRow.jobId row.jobId = some letter ∧
    letter.envelopeJobId = some envelope.jobId ∧ envelope ∈ db.envelopes ∧
    envelope.status = .dead ∧ envelope.dedupeKey = row.dedupeKey
  replay : ∀ now idempotencyKey,
    db.replayOperations.lookup ReplayOperationRow.idempotencyKey idempotencyKey = none →
    (∀ effect ∈ db.effects, effect.jobId = row.jobId → effect.status.isTerminal = false) →
    Publishes env now row.jobId idempotencyKey db

/-- Every dead article can be recovered. -/
def Recoverable (env : Env) (db : Db) : Prop :=
  ∀ row ∈ db.jobs, row.itemKind = some .article → row.status = .dead → RecoverableRow env db row

/-- A claim uses the job id with the key that the id belongs to. -/
def KeyedBy (env : Env) (keyOf : String → String) (input : Instant × ControlCall) : Prop :=
  ∀ iv body job, input.2 = .job (.claim iv body) → parseQueueJob env.zod body = some job →
    job.dedupeKey = keyOf job.jobId

/-- A failed finish with a digest of which an article dies names a job id that has an envelope. -/
def DiesWithEnvelope (db : Db) (input : Instant × ControlCall) : Prop :=
  ∀ jobId errorClass errorMessage digest row,
    input.2 = .job (.finish jobId (.failed errorClass errorMessage (some digest))) → digest ≠ "" →
    db.jobs.lookup JobRow.jobId jobId = some row → row.status.isTerminal = false →
    row.itemKind = some .article → row.dies errorClass = true →
    (db.envelopes.lookup EnvelopeRow.jobId jobId).isSome = true

/-! ## Envelopes hold their jobs -/

/-- What is in an envelope. -/
structure Opens (env : Env) (envelope : EnvelopeRow) (job : QueueJob) : Prop where
  valid : job.Valid env.zod
  jobId : job.jobId = envelope.jobId
  schemaVersion : job.schemaVersion = envelope.schemaVersion
  digest : env.digestJob job = envelope.payloadDigest
  opens : env.decryptJson envelope.ciphertext = some job.toJson

/-- What an envelope holds, under whose id and key it is kept. -/
structure Holds (env : Env) (keyOf : String → String) (envelope : EnvelopeRow) (job : QueueJob) :
    Prop where
  valid : job.Valid env.zod
  jobId : job.jobId = envelope.jobId
  dedupeKey : envelope.dedupeKey = keyOf envelope.jobId
  schemaVersion : job.schemaVersion = envelope.schemaVersion
  digest : env.digestJob job = envelope.payloadDigest
  opens : env.decryptJson envelope.ciphertext = some job.toJson

theorem Holds.opened {env : Env} {keyOf : String → String} {envelope : EnvelopeRow} {job : QueueJob}
    (h : Holds env keyOf envelope job) : Opens env envelope job :=
  ⟨h.valid, h.jobId, h.schemaVersion, h.digest, h.opens⟩

/-- What the rows of a reachable database are made of. -/
structure SealedInv (env : Env) (keyOf : String → String) (db : Db) : Prop where
  rows : ∀ row ∈ db.jobs, row.dedupeKey = keyOf row.jobId ∧ env.zod.uuid row.jobId = true
  envelopes : ∀ envelope ∈ db.envelopes, ∃ job, Holds env keyOf envelope job
  operations : ∀ operation ∈ db.replayOperations, '\u0000' ∉ operation.jobId.toList ∧
    operation.messageId =
      Postgres.replayMessageId env operation.jobId operation.idempotencyKey

theorem Holds.setStatus {env : Env} {keyOf : String → String} {envelope : EnvelopeRow}
    {job : QueueJob} (h : Holds env keyOf envelope job) (status : EnvelopeStatus) (now : Instant) :
    Holds env keyOf (envelope.setStatus status now) job :=
  ⟨h.valid, h.jobId, h.dedupeKey, h.schemaVersion, h.digest, h.opens⟩

namespace SealedInv

variable {env : Env} {keyOf : String → String} {now : Instant} {db : Db}

/-- A claim keeps the envelopes sealed. -/
theorem claim (hround : env.RoundTrips) (hzod : env.zod.Lawful) (h : SealedInv env keyOf db)
    {iv : Bytes} {input : Json}
    (hkey : ∀ job, parseQueueJob env.zod input = some job → job.dedupeKey = keyOf job.jobId)
    {result : Db × Except ErrorText ClaimJobReply}
    (hclaim : ClaimOutcome env now iv input db result) : SealedInv env keyOf result.1 := by
  cases hclaim with
  | refused _ => exact h
  | @created job jobs envelopes parse insert sealed =>
    have hvalid := parseQueueJob_valid hzod parse
    refine ⟨fun row hrow => ?_, fun envelope henv => ?_, h.operations⟩
    · rcases (Table.mem_insert? insert).mp hrow with hold | rfl
      · exact h.rows row hold
      · exact ⟨hkey job parse, hvalid.jobId⟩
    · unfold SealedBy at sealed
      split at sealed
      · obtain ⟨ciphertext, henc, hsealed⟩ := sealed
        rcases Table.mem_insertUnless? hsealed henv with hold | rfl
        · exact h.envelopes envelope hold
        · exact ⟨job, hvalid, rfl, hkey job parse, rfl, rfl, hround iv _ _ henc⟩
      · rw [sealed] at henv
        exact h.envelopes envelope henv
  | @reclaimed job taken jobs parse lookup claimable update =>
    refine ⟨fun row hrow => ?_, h.envelopes, h.operations⟩
    obtain ⟨old, hold, heq⟩ := (Table.mem_update? update).mp hrow
    split at heq
    · next hmet =>
      rw [← heq]
      exact ⟨(of_decide_eq_true hmet).trans (hkey job parse), (parseQueueJob_valid hzod parse).jobId⟩
    · rw [← heq]
      exact h.rows old hold

theorem finish (h : SealedInv env keyOf db) {jobId : String} {input : JobResult}
    {result : Db × Except ErrorText Settlement}
    (hfinish : FinishOutcome now jobId input db result) : SealedInv env keyOf result.1 := by
  cases hfinish with
  | threw => exact h
  | settled _ _ => exact h
  | @finished row db' settlement lookup live finished _ =>
    refine ⟨fun r hr => ?_, fun envelope henv => ?_, ?_⟩
    · rw [show (db', Except.ok settlement).1.jobs = _ from finished.jobs] at hr
      obtain ⟨old, hold, heq⟩ := Table.mem_update.mp hr
      have hkeys : r.dedupeKey = old.dedupeKey ∧ r.jobId = old.jobId := by
        rw [← heq]
        split
        · exact JobRow.finish_keys input now old
        · exact ⟨rfl, rfl⟩
      rw [hkeys.1, hkeys.2]
      exact h.rows old hold
    · rw [show (db', Except.ok settlement).1.envelopes = _ from finished.envelopes] at henv
      have hupdate : ∀ s : EnvelopeStatus, envelope ∈ db.envelopes.update
          (fun e => e.jobId = jobId) (EnvelopeRow.setStatus s now) →
          ∃ job, Holds env keyOf envelope job := by
        intro s hmem
        obtain ⟨old, hold, heq⟩ := Table.mem_update.mp hmem
        obtain ⟨job, hjob⟩ := h.envelopes old hold
        refine ⟨job, ?_⟩
        rw [← heq]
        split
        · exact hjob.setStatus s now
        · exact hjob
      cases hstatus : (row.finish input now).status with
      | dead => rw [hstatus] at henv; exact hupdate _ henv
      | uncertain => rw [hstatus] at henv; exact hupdate _ henv
      | done => rw [hstatus] at henv; exact h.envelopes envelope (Table.mem_delete.mp henv).1
      | processing | deferred | failed =>
        rw [hstatus] at henv
        exact h.envelopes envelope henv
    · show ∀ operation ∈ db'.replayOperations, _
      rw [finished.replayOperations]
      exact h.operations

theorem replay (hzod : env.zod.Lawful) (h : SealedInv env keyOf db) {jobId : String}
    {input : ReplayInput} {result : Db × Except ErrorText ReplayReply}
    (hreplay : ReplayOutcome env now jobId input db result) : SealedInv env keyOf result.1 := by
  cases hreplay with
  | unchanged _ => exact h
  | @published db' job envelopeJobId published =>
    refine ⟨fun r hr => ?_, fun envelope henv => ?_, fun operation hoperation => ?_⟩
    · rw [show (db', Except.ok Postgres.publishedReply).1.jobs = _ from published.jobs] at hr
      obtain ⟨old, hold, heq⟩ := Table.mem_update.mp hr
      have hkeys : r.dedupeKey = old.dedupeKey ∧ r.jobId = old.jobId := by
        rw [← heq]
        split <;> exact ⟨rfl, rfl⟩
      rw [hkeys.1, hkeys.2]
      exact h.rows old hold
    · rw [show (db', Except.ok Postgres.publishedReply).1.envelopes = _ from published.envelopes]
        at henv
      obtain ⟨old, hold, heq⟩ := Table.mem_update.mp henv
      obtain ⟨held, hheld⟩ := h.envelopes old hold
      refine ⟨held, ?_⟩
      rw [← heq]
      split
      · exact hheld.setStatus .active now
      · exact hheld
    · rcases (Table.mem_insert? published.operations).mp hoperation with hold | rfl
      · exact h.operations operation hold
      · obtain ⟨letter, envelope, -, -, -, -, hfound, hid⟩ := openEnvelope_eq_ok published.opened
        obtain ⟨value, -, hparse⟩ := Option.bind_eq_some_iff.mp hfound
        have huuid := (parseQueueJob_valid hzod hparse).jobId
        rw [hid] at huuid
        exact ⟨hzod.uuid_noNul _ huuid, rfl⟩

end SealedInv

/-! ## Dead articles have envelopes -/

/-- Every dead article has a letter, which names its envelope, and the envelope is dead. -/
def DeadCovered (db : Db) : Prop :=
  ∀ row ∈ db.jobs, row.itemKind = some .article → row.status = .dead →
    (∃ letter, db.deadLetters.lookup DeadLetterRow.jobId row.jobId = some letter ∧
      letter.envelopeJobId = some row.jobId) ∧
    ∃ envelope ∈ db.envelopes, envelope.jobId = row.jobId ∧ envelope.status = .dead

section Covered

variable {env : Env} {now : Instant} {db : Db}

/-- A dead article that stays dead stays covered, if its letter stays. -/
theorem DeadCovered.of_keepsDead {db' : Db} (h : DeadCovered db) (hkeeps : KeepsDead db db')
    (hdead : ∀ row ∈ db'.jobs, row.status = .dead → row ∈ db.jobs)
    (hletters : db'.deadLetters = db.deadLetters) : DeadCovered db' := by
  intro row hrow harticle hs
  obtain ⟨hletter, envelope, henv, hid, hdeadEnv⟩ := h row (hdead row hrow hs) harticle hs
  rw [hletters]
  exact ⟨hletter, envelope, hkeeps.envelopes envelope henv hdeadEnv, hid, hdeadEnv⟩

/-- A claim makes no job dead. -/
theorem ClaimOutcome.of_dead_row {iv : Bytes} {input : Json}
    {result : Db × Except ErrorText ClaimJobReply} (h : ClaimOutcome env now iv input db result)
    {row : JobRow} (hrow : row ∈ result.1.jobs) (hs : row.status = .dead) : row ∈ db.jobs := by
  cases h with
  | refused _ => exact hrow
  | created parse insert sealed =>
    rcases (Table.mem_insert? insert).mp hrow with hold | rfl
    · exact hold
    · cases hs
  | reclaimed parse lookup claimable update =>
    obtain ⟨old, hold, heq⟩ := (Table.mem_update? update).mp hrow
    split at heq
    · rw [← heq] at hs
      cases hs
    · rw [← heq]
      exact hold

/-- The letter of a job that dies under a job id with an envelope names that envelope. -/
theorem Finished.covered {jobId : String} {input : JobResult} {row : JobRow} {db' : Db}
    (h : Finished now jobId input row db db')
    (hdead : (row.finish input now).status = .dead)
    (henvelope : (db.envelopes.lookup EnvelopeRow.jobId jobId).isSome = true) :
    (∃ letter, db'.deadLetters.lookup DeadLetterRow.jobId jobId = some letter ∧
      letter.envelopeJobId = some jobId) ∧
    ∃ envelope ∈ db'.envelopes, envelope.jobId = jobId ∧ envelope.status = .dead := by
  obtain ⟨envelope, henv⟩ := Option.isSome_iff_exists.mp henvelope
  constructor
  · obtain ⟨new, letter, hnew, hletter, hrewrite⟩ := h.letter_written hdead
    have hnamed : new.envelopeJobId = some jobId := by
      rw [(writesLetter_envelope hnew).2, henv]
      rfl
    exact ⟨letter, hletter, (congrArg DeadLetterRow.envelopeJobId hrewrite).symm.trans hnamed⟩
  · have henvid : envelope.jobId = jobId := Table.lookup_key henv
    refine ⟨envelope.setStatus .dead now, ?_, henvid, rfl⟩
    rw [h.envelopes, hdead]
    exact Table.mem_update_of (Table.lookup_mem henv) (decide_eq_true henvid)

/-- A finish leaves a job that dies with its envelope. -/
theorem DeadCovered.finish (hinv : EnvelopeInv db) (h : DeadCovered db) {jobId : String}
    {input : JobResult} {result : Db × Except ErrorText Settlement}
    (hfinish : FinishOutcome now jobId input db result)
    (hdies : DiesWithEnvelope db (now, .job (.finish jobId input))) : DeadCovered result.1 := by
  have hkeeps := hfinish.keepsDead hinv
  cases hfinish with
  | threw => exact h
  | settled _ _ => exact h
  | @finished taken db' settlement lookup live finished _ =>
    have hid : taken.jobId = jobId := Table.lookup_key lookup
    intro row hrow harticle hs
    rw [show (db', Except.ok settlement).1.jobs = _ from finished.jobs] at hrow
    obtain ⟨old, hold, heq⟩ := Table.mem_update.mp hrow
    by_cases hmet : old.jobId = jobId
    · -- The row that dies now.
      have hsame : old = taken := Table.eq_of_conflict hold (Table.lookup_mem lookup)
        (JobRow.isKey_jobId _ _ (hmet.trans hid.symm))
      rw [if_pos (decide_eq_true hmet), hsame] at heq
      have hdead : (taken.finish input now).status = .dead := by rw [heq]; exact hs
      obtain ⟨errorClass, errorMessage, payloadDigest, rfl, hkills⟩ :=
        (JobRow.finish_dead_iff input now taken).mp hdead
      have harticle' : taken.itemKind = some .article := by
        rw [← harticle, ← heq]
        unfold JobRow.finish
        dsimp only
        split <;> rfl
      have henvelope : (db.envelopes.lookup EnvelopeRow.jobId jobId).isSome = true := by
        cases henv : db.envelopes.lookup EnvelopeRow.jobId jobId with
        | some envelope => rfl
        | none =>
          -- Without an envelope the letter has the digest of the request.
          have hletter := finished.letter hdead
          simp only [writesLetter, if_pos hkills, henv, deadLetterDigest, Option.map_none,
            Option.none_or] at hletter
          cases payloadDigest with
          | none => cases hletter
          | some digest =>
            have hne : digest ≠ "" := by
              rintro rfl
              cases hletter
            have hsome := hdies jobId errorClass errorMessage digest taken rfl hne lookup live
              harticle' hkills
            rwa [henv] at hsome
      have hrowid : row.jobId = jobId := by rw [← heq, JobRow.finish_jobId, hid]
      rw [hrowid]
      exact finished.covered hdead henvelope
    · rw [if_neg (by simpa using hmet)] at heq
      subst heq
      obtain ⟨⟨letter, hletter, hnamed⟩, envelope, henv, henvid, hdeadEnv⟩ := h old hold harticle hs
      refine ⟨⟨letter, ?_, hnamed⟩, envelope, hkeeps.envelopes envelope henv hdeadEnv, henvid,
        hdeadEnv⟩
      exact (finished.letter_other hmet).trans hletter

/-- A replay leaves the dead jobs with theirs. -/
theorem DeadCovered.replay (hinv : EnvelopeInv db) (h : DeadCovered db) {jobId : String}
    {input : ReplayInput} {result : Db × Except ErrorText ReplayReply}
    (hreplay : ReplayOutcome env now jobId input db result) : DeadCovered result.1 := by
  cases hreplay with
  | unchanged _ => exact h
  | @published db' job envelopeJobId published =>
    obtain ⟨rfl, -⟩ := hinv.openEnvelope published.opened
    intro row hrow harticle hs
    rw [show (db', Except.ok Postgres.publishedReply).1.jobs = _ from published.jobs] at hrow
    obtain ⟨old, hold, heq⟩ := Table.mem_update.mp hrow
    by_cases hmet : (decide (old.jobId = envelopeJobId) && decide (old.status = .dead)) = true
    · rw [if_pos hmet] at heq
      rw [← heq] at hs
      cases hs
    · rw [if_neg hmet] at heq
      subst heq
      have hother : old.jobId ≠ envelopeJobId := by simpa [hs] using hmet
      obtain ⟨hletter, envelope, henv, henvid, hdeadEnv⟩ := h old hold harticle hs
      refine ⟨?_, envelope, ?_, henvid, hdeadEnv⟩
      · show ∃ letter, db'.deadLetters.lookup DeadLetterRow.jobId old.jobId = some letter ∧ _
        rw [published.deadLetters]
        exact hletter
      · show envelope ∈ db'.envelopes
        rw [published.envelopes]
        refine Table.mem_update_of_not henv ?_
        rw [henvid]
        simp [hother]

end Covered

/-! ## Replays of covered jobs -/

/-- A job that is not done or uncertain, and has no such effect, may be replayed. -/
theorem terminalReason_eq_none {env : Env} {db : Db} {row : JobRow}
    (hrow : db.jobs.lookup JobRow.jobId row.jobId = some row) (hs : row.status = .dead)
    (heffects : ∀ effect ∈ db.effects, effect.jobId = row.jobId → effect.status.isTerminal = false) :
    Postgres.terminalReason env row.jobId db = none := by
  have heffect : Postgres.terminalEffect env row.jobId db.effects = none :=
    Postgres.terminalEffect_eq_none_iff.mpr heffects
  simp [Postgres.terminalReason, hrow, hs, Postgres.terminalJobReason, heffect]

/-- The checks of a replay pass on an envelope that holds its job. -/
theorem openEnvelope_of_opens {env : Env} (hzod : env.zod.Lawful) {db : Db} {jobId : String}
    {letter : DeadLetterRow} {envelope : EnvelopeRow} {job : QueueJob}
    (hletter : db.deadLetters.lookup DeadLetterRow.jobId jobId = some letter)
    (hnamed : letter.envelopeJobId = some jobId)
    (henv : db.envelopes.lookup EnvelopeRow.jobId jobId = some envelope)
    (hdead : envelope.status = .dead) (hopens : Opens env envelope job) :
    Postgres.openEnvelope env jobId db = .ok (job, jobId) := by
  have hid : job.jobId = jobId := hopens.jobId.trans (Table.lookup_key henv)
  have hne : jobId ≠ "" := by
    rw [← hid]
    exact hzod.uuid_ne_empty _ hopens.valid.jobId
  have hopen : (env.decryptJson envelope.ciphertext).bind (parseQueueJob env.zod) = some job := by
    rw [hopens.opens]
    exact parseQueueJob_toJson hopens.valid
  unfold Postgres.openEnvelope
  rw [hletter, Option.bind_some, hnamed]
  split
  · next h => cases h
  · next h => exact absurd (Option.some.inj h) hne
  · next id h =>
    obtain rfl := Option.some.inj h
    simp [henv, hdead, hopen, hid, hopens.schemaVersion, hopens.digest]

/-- An operation with a new key has a new message. -/
theorem insert_replayOperation {env : Env} {keyOf : String → String} (hcollide : env.CollisionFree)
    {db : Db} (hsealed : SealedInv env keyOf db) (now : Instant) {jobId idempotencyKey : String}
    (hid : '\u0000' ∉ jobId.toList)
    (hfresh : db.replayOperations.lookup ReplayOperationRow.idempotencyKey idempotencyKey = none) :
    ∃ operations, db.replayOperations.insert?
      (Postgres.replayOperation env now jobId idempotencyKey) = some operations := by
  refine Table.insert?_isSome fun operation hmem => Bool.eq_false_iff.mpr fun hconflict => ?_
  have hother := Table.lookup_eq_none.mp hfresh operation hmem
  obtain ⟨hnul, hmessage⟩ := hsealed.operations operation hmem
  simp only [Constrained.conflict, Bool.or_eq_true, decide_eq_true_eq] at hconflict
  rcases hconflict with hkey | hsame
  · exact hother hkey
  · -- One message id is one digest, so one text, so one key.
    rw [hmessage] at hsame
    have hdigest : env.sha256Hex (joinNul operation.jobId operation.idempotencyKey) =
        env.sha256Hex (joinNul jobId idempotencyKey) := by
      have hlists := congrArg String.toList hsame
      simp only [Postgres.replayMessageId, Postgres.replayOperation, String.toList_append,
        List.append_cancel_left_eq] at hlists
      exact String.toList_inj.mp hlists
    exact hother (joinNul_inj hnul hid (hcollide hdigest)).2

/-- A replay whose checks pass is published. -/
theorem publishes_of_open {env : Env} {now : Instant} {jobId idempotencyKey : String} {db : Db}
    {job : QueueJob} {envelopeJobId : String} {operations : Table ReplayOperationRow}
    (hterminal : Postgres.terminalReason env jobId db = none)
    (hfresh : db.replayOperations.lookup ReplayOperationRow.idempotencyKey idempotencyKey = none)
    (hopen : Postgres.openEnvelope env jobId db = .ok (job, envelopeJobId))
    (hoperations : db.replayOperations.insert?
      (Postgres.replayOperation env now jobId idempotencyKey) = some operations) :
    Publishes env now jobId idempotencyKey db := by
  obtain ⟨inbox, hinbox, -⟩ := insertUnless?_staged db.inbox
    (Postgres.replayMessageId env jobId idempotencyKey) job.toJson now now
  unfold Publishes
  simp [Postgres.replayDeadLetter, hterminal, hfresh, hopen, hoperations, Postgres.publishReplay,
    hinbox, transact]

/-- A dead article that is covered can be recovered. -/
theorem recoverable_of_covered {env : Env} {keyOf : String → String} (hcollide : env.CollisionFree)
    (hzod : env.zod.Lawful) {db : Db} (hsealed : SealedInv env keyOf db) (h : DeadCovered db) :
    Recoverable env db := by
  intro row hrow harticle hs
  obtain ⟨⟨letter, hletter, hnamed⟩, envelope, henv, henvid, hdead⟩ := h row hrow harticle hs
  obtain ⟨hkey, huuid⟩ := hsealed.rows row hrow
  obtain ⟨job, hholds⟩ := hsealed.envelopes envelope henv
  constructor
  · refine ⟨letter, envelope, hletter, by rw [henvid]; exact hnamed, henv, hdead, ?_⟩
    rw [hholds.dedupeKey, henvid, hkey]
  · intro now idempotencyKey hfresh heffects
    have hlookup : db.jobs.lookup JobRow.jobId row.jobId = some row :=
      (Table.lookup_eq_some JobRow.isKey_jobId).mpr ⟨hrow, rfl⟩
    have henvlookup : db.envelopes.lookup EnvelopeRow.jobId row.jobId = some envelope :=
      (Table.lookup_eq_some EnvelopeRow.isKey_jobId).mpr ⟨henv, henvid⟩
    obtain ⟨operations, hoperations⟩ := insert_replayOperation hcollide hsealed now
      (hzod.uuid_noNul _ huuid) hfresh
    exact publishes_of_open (terminalReason_eq_none hlookup hs heffects) hfresh
      (openEnvelope_of_opens hzod hletter hnamed henvlookup hdead hholds.opened) hoperations

/-! ## Runs -/

/-- What holds after every run in which articles die with their envelopes. -/
structure RecoveryInv (env : Env) (keyOf : String → String) (db : Db) : Prop where
  envelopes : EnvelopeInv db
  sealed : SealedInv env keyOf db
  covered : DeadCovered db

theorem recoveryInv_empty (env : Env) (keyOf : String → String) : RecoveryInv env keyOf ∅ where
  envelopes := envelopeInv_empty
  sealed := ⟨fun _ h => absurd h Table.not_mem_empty, fun _ h => absurd h Table.not_mem_empty,
    fun _ h => absurd h Table.not_mem_empty⟩
  covered _ h := absurd h Table.not_mem_empty

section Runs

variable {env : Env} {keyOf : String → String} {db : Db}

/-- A call that kills no job without its envelope keeps all of this. -/
theorem recoveryInv_next (hround : env.RoundTrips) (hzod : env.zod.Lawful)
    (h : RecoveryInv env keyOf db) {input : Instant × ControlCall} (hkeyed : KeyedBy env keyOf input)
    (hdies : DiesWithEnvelope db input) : RecoveryInv env keyOf ((controlMachine env).next db input) := by
  refine ⟨envelopeInv_next h.envelopes, ?_, ?_⟩
  · obtain ⟨now, call⟩ := input
    cases call with
    | job call =>
      cases call with
      | claim iv body =>
        exact h.sealed.claim hround hzod (fun job => hkeyed iv body job rfl)
          (claimJob_outcome .postgres env now iv body db)
      | finish jobId result => exact h.sealed.finish (finishJob_outcome .postgres now jobId result db)
    | effect call =>
      cases call with
      | claim effect =>
        obtain ⟨effects, heq, -⟩ := lookup_claimEffect .postgres now effect db
        show SealedInv env keyOf (Backend.claimEffect now effect db .postgres).1
        rw [heq]
        exact ⟨h.sealed.rows, h.sealed.envelopes, h.sealed.operations⟩
      | finish effectKey result => exact ⟨h.sealed.rows, h.sealed.envelopes, h.sealed.operations⟩
    | replay jobId replayInput =>
      exact h.sealed.replay hzod (replayDeadLetter_outcome env now jobId replayInput db)
  · obtain ⟨now, call⟩ := input
    cases call with
    | job call =>
      cases call with
      | claim iv body =>
        have houtcome := claimJob_outcome .postgres env now iv body db
        exact h.covered.of_keepsDead houtcome.keepsDead (fun _ => houtcome.of_dead_row)
          (claim_deadLetters now iv body)
      | finish jobId result =>
        exact h.covered.finish h.envelopes (finishJob_outcome .postgres now jobId result db) hdies
    | effect call =>
      cases call with
      | claim effect =>
        obtain ⟨effects, heq, -⟩ := lookup_claimEffect .postgres now effect db
        show DeadCovered (Backend.claimEffect now effect db .postgres).1
        rw [heq]
        exact h.covered
      | finish effectKey result => exact h.covered
    | replay jobId replayInput =>
      exact h.covered.replay h.envelopes (replayDeadLetter_outcome env now jobId replayInput db)

/-- A failed finish with a digest, of which the job dies, goes through. -/
theorem finishJob_kills (now : Instant) {jobId : String} {errorClass : Option JobErrorClass}
    (errorMessage : Option String) {digest : String} {row : JobRow}
    (hrow : db.jobs.lookup JobRow.jobId jobId = some row) (hlive : row.status.isTerminal = false)
    (hsafe : row.failureAttempts ≤ maxSafeInteger) (hdies : row.dies errorClass = true)
    (henvelope : db.envelopes.lookup EnvelopeRow.jobId jobId = none) (hdigest : digest ≠ "") :
    (Backend.postgres.finishJob now jobId (.failed errorClass errorMessage (some digest)) db).2 =
      .ok .ack := by
  have hletter : deadLetterDigest none (some digest) = some digest := by
    simp [deadLetterDigest, hdigest]
  show (transact db (Postgres.finishJob now jobId (.failed errorClass errorMessage (some digest))
    db)).2 = .ok .ack
  simp [Postgres.finishJob, hrow, hlive, Postgres.failJob, safeInteger, hsafe,
    decideJobTransition_failed, hdies, Postgres.buryJob, henvelope, hletter, transact]

/-- An article that dies without an envelope cannot be recovered. -/
theorem not_recoverable_of_orphan {calls : List (Instant × ControlCall)} (now : Instant)
    {jobId : String} {errorClass : Option JobErrorClass} (errorMessage : Option String)
    {digest : String} {row : JobRow} (hdigest : digest ≠ "")
    (hrow : ((controlMachine env).run ∅ calls).jobs.lookup JobRow.jobId jobId = some row)
    (hlive : row.status.isTerminal = false) (harticle : row.itemKind = some .article)
    (hdies : row.dies errorClass = true)
    (henvelope : ((controlMachine env).run ∅ calls).envelopes.lookup EnvelopeRow.jobId jobId = none) :
    ¬ Recoverable env ((controlMachine env).run ∅
      (calls ++ [(now, .job (.finish jobId (.failed errorClass errorMessage (some digest))))])) := by
  intro h
  rw [Machine.run_snoc] at h
  have hkey := lookup_jobId_iff.mp hrow
  have hle := (counterInv env row.dedupeKey calls).live row hkey.1 hlive
  -- the finish kills the job
  have hreply := finishJob_kills now errorMessage hrow hlive
    (hle.trans (by decide)) hdies henvelope hdigest
  have houtcome := finishJob_outcome .postgres now jobId
    (.failed errorClass errorMessage (some digest)) ((controlMachine env).run ∅ calls)
  change Recoverable env (Backend.postgres.finishJob now jobId
    (.failed errorClass errorMessage (some digest)) ((controlMachine env).run ∅ calls)).1 at h
  cases hresult : Backend.postgres.finishJob now jobId
      (.failed errorClass errorMessage (some digest)) ((controlMachine env).run ∅ calls) with
  | mk db' reply =>
    rw [hresult] at houtcome hreply h
    cases houtcome with
    | threw => cases hreply
    | settled lookup terminal =>
      rw [Option.some.inj (hrow.symm.trans lookup), terminal] at hlive
      cases hlive
    | @finished taken db' settlement lookup live finished _ =>
      obtain rfl : taken = row := Option.some.inj (lookup.symm.trans hrow)
      have hid : taken.jobId = jobId := Table.lookup_key lookup
      have hdead := (JobRow.finish_dead_iff (.failed errorClass errorMessage (some digest)) now
        taken).mpr ⟨_, _, _, rfl, hdies⟩
      have hmem : taken.finish (.failed errorClass errorMessage (some digest)) now ∈ db'.jobs := by
        rw [finished.jobs]
        exact Table.mem_update_of (Table.lookup_mem lookup) (decide_eq_true hid)
      have hkind : (taken.finish (.failed errorClass errorMessage (some digest)) now).itemKind =
          some .article := by
        unfold JobRow.finish
        dsimp only
        split <;> exact harticle
      -- its letter would name an envelope, but there was none to name
      obtain ⟨letter, envelope, hletter, hnamed, -⟩ := (h _ hmem hkind hdead).envelope
      obtain ⟨new, written, hnew, hwritten, hrewrite⟩ := finished.letter_written hdead
      rw [JobRow.finish_jobId, hid, hwritten] at hletter
      have hnone : new.envelopeJobId = none := by
        rw [(writesLetter_envelope hnew).2, henvelope]
        rfl
      have hnamed' : written.envelopeJobId = none :=
        (congrArg DeadLetterRow.envelopeJobId hrewrite).symm.trans hnone
      rw [← Option.some.inj hletter, hnamed'] at hnamed
      cases hnamed

end Runs

/--
**Dead articles can be recovered in exactly the runs in which none dies without its envelope.** The
runs start from empty tables, and use no job id with two keys.
-/
theorem dead_articles_recoverable_iff (env : Env) (hround : env.RoundTrips)
    (hcollide : env.CollisionFree) (hzod : env.zod.Lawful) (keyOf : String → String)
    (calls : List (Instant × ControlCall)) (hkeyed : ∀ c ∈ calls, KeyedBy env keyOf c) :
    (∀ pre post, calls = pre ++ post → Recoverable env ((controlMachine env).run ∅ pre)) ↔
      (controlMachine env).Admits DiesWithEnvelope ∅ calls := by
  constructor
  · intro h
    refine Machine.admits_of_forall fun pre input post hcalls => ?_
    intro jobId errorClass errorMessage digest row hinput hdigest hrow hlive harticle hdies
    by_contra henvelope
    obtain ⟨now, call⟩ := input
    obtain rfl : call = _ := hinput
    refine not_recoverable_of_orphan now errorMessage hdigest hrow hlive harticle hdies ?_
      (h (pre ++ [_]) post (by rw [hcalls]; simp))
    cases henv : ((controlMachine env).run ∅ pre).envelopes.lookup EnvelopeRow.jobId jobId with
    | none => rfl
    | some envelope =>
      rw [henv] at henvelope
      exact absurd rfl henvelope
  · rintro h pre post rfl
    have hinv : RecoveryInv env keyOf ((controlMachine env).run ∅ pre) := by
      have hboth : (controlMachine env).Admits
          (fun db c => KeyedBy env keyOf c ∧ DiesWithEnvelope db c) ∅ pre := by
        refine Machine.admits_of_forall fun before c after heq => ⟨hkeyed c (by simp [heq]), ?_⟩
        rw [heq] at h
        exact h.left.at
      exact Machine.run_invariant (I := RecoveryInv env keyOf)
        (fun _ _ hinv hc => recoveryInv_next hround hzod hinv hc.1 hc.2)
        (recoveryInv_empty env keyOf) hboth
    exact recoverable_of_covered hcollide hzod hinv.sealed hinv.covered

/-! ## Two job ids for one article -/

/-- An article is claimed, and fails with a permanent error. -/
def buried : List (Instant × ControlCall) :=
  [(0, .job (.claim Sample.iv (Sample.articleJob Sample.firstId).toJson)),
    (1000, .job (.finish Sample.firstId (.failed (some .permanent) none (some "digest"))))]

/-- The claims of the samples are of one article. -/
theorem keyedBy_sample {calls : List (Instant × ControlCall)}
    (h : ∀ c ∈ calls, ∀ iv body, c.2 = .job (.claim iv body) →
      ∃ jobId, Sample.zod.uuid jobId = true ∧ body = (Sample.articleJob jobId).toJson) :
    ∀ c ∈ calls, KeyedBy Sample.env (fun _ => "article:1") c := by
  intro c hc iv body job hcall hparse
  obtain ⟨jobId, huuid, rfl⟩ := h c hc iv body hcall
  have hsame : parseQueueJob Sample.env.zod (Sample.articleJob jobId).toJson =
      some (Sample.articleJob jobId) := parseQueueJob_toJson (Sample.articleJob_valid jobId huuid)
  rw [← Option.some.inj (hsame.symm.trans hparse)]
  rfl

theorem buried_keyed : ∀ c ∈ buried, KeyedBy Sample.env (fun _ => "article:1") c := by
  refine keyedBy_sample fun c hc iv body hcall => ⟨Sample.firstId, rfl, ?_⟩
  simp only [buried, List.mem_cons, List.not_mem_nil, or_false] at hc
  rcases hc with rfl | rfl
  · exact ((JobCall.claim.inj (ControlCall.job.inj hcall)).2).symm
  · cases ControlCall.job.inj hcall

theorem dead_articles_recoverable_buried :
    (∀ pre post, buried = pre ++ post →
        Recoverable Sample.env ((controlMachine Sample.env).run ∅ pre)) ↔
      (controlMachine Sample.env).Admits DiesWithEnvelope ∅ buried :=
  dead_articles_recoverable_iff Sample.env Sample.env_roundTrips Sample.env_collisionFree
    Sample.zod_lawful (fun _ => "article:1") buried buried_keyed

/-- The article is claimed again by a message with another job id, and dies under that id. -/
def orphaned : List (Instant × ControlCall) :=
  [(0, .job (.claim Sample.iv (Sample.articleJob Sample.firstId).toJson)),
    (1000, .job (.finish Sample.firstId (.failed (some .retryable) none (some "digest")))),
    (60000, .job (.claim Sample.iv (Sample.articleJob Sample.secondId).toJson)),
    (61000, .job (.finish Sample.secondId (.failed (some .permanent) none (some "digest"))))]

theorem orphaned_keyed : ∀ c ∈ orphaned, KeyedBy Sample.env (fun _ => "article:1") c := by
  refine keyedBy_sample fun c hc iv body hcall => ?_
  simp only [orphaned, List.mem_cons, List.not_mem_nil, or_false] at hc
  rcases hc with rfl | rfl | rfl | rfl
  · exact ⟨Sample.firstId, rfl, ((JobCall.claim.inj (ControlCall.job.inj hcall)).2).symm⟩
  · cases ControlCall.job.inj hcall
  · exact ⟨Sample.secondId, rfl, ((JobCall.claim.inj (ControlCall.job.inj hcall)).2).symm⟩
  · cases ControlCall.job.inj hcall

/-- The article dies under an id that has no envelope. -/
theorem orphaned_article :
    ¬ ∀ calls, (∀ c ∈ calls, KeyedBy Sample.env (fun _ => "article:1") c) →
      Recoverable Sample.env ((controlMachine Sample.env).run ∅ calls) := by
  intro h
  have hrows : ∃ row ∈ ((controlMachine Sample.env).run ∅ orphaned).jobs.rows,
      row.itemKind = some .article ∧ row.status = .dead ∧
      (((controlMachine Sample.env).run ∅ orphaned).deadLetters.lookup DeadLetterRow.jobId
        row.jobId).bind DeadLetterRow.envelopeJobId = none := by decide +kernel
  obtain ⟨row, hrow, harticle, hs, hnone⟩ := hrows
  obtain ⟨letter, envelope, hletter, hnamed, -⟩ :=
    (h orphaned orphaned_keyed row hrow harticle hs).envelope
  rw [hletter, Option.bind_some, hnamed] at hnone
  cases hnone

end InboxServer
