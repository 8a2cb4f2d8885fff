import InboxServer.Api.Postgres.Readiness
import InboxServer.Properties.Recovery

/-!
# The report on dead letters, beside the replay

The report and the replay look at a dead letter with different eyes: the report asks whether the job
was ever replayed, the replay whether the job has an effect that is done or uncertain.

* `report_and_replay` — what each of the two says of a dead job, in every reachable database, and
  when they agree
* `report_disagrees` — a job that died again after its replay, and a job with an effect that is done
-/

namespace InboxServer

open Infra

/-- The report counts the letter as matched. -/
def CountedAsMatched (freezeAt : Instant) (letter : DeadLetterRow) (db : Db) : Prop :=
  letter.createdAt ≤ freezeAt ∧
    Postgres.classifyDeadLetter (Postgres.dlqRow letter db) = .matched

instance (freezeAt : Instant) (letter : DeadLetterRow) (db : Db) :
    Decidable (CountedAsMatched freezeAt letter db) :=
  inferInstanceAs (Decidable (_ ∧ _))

/-- A dry run of the replay says that the job can be replayed. -/
def Validates (env : Env) (now : Instant) (jobId idempotencyKey : String) (db : Db) : Prop :=
  (transact db (Postgres.replayDeadLetter env now jobId ⟨true, idempotencyKey⟩ db)).2 =
    .ok Postgres.validatedReply

instance (env : Env) (now : Instant) (jobId idempotencyKey : String) (db : Db) :
    Decidable (Validates env now jobId idempotencyKey db) :=
  inferInstanceAs (Decidable (_ = _))

/-- An effect of the job is done or uncertain. -/
def HasTerminalEffect (jobId : String) (db : Db) : Prop :=
  ∃ effect ∈ db.effects, effect.jobId = jobId ∧ effect.status.isTerminal = true

/-- The count of the report is that of the letters that it counts. -/
theorem counts_matched (freezeAt : Instant) (db : Db) :
    (Postgres.getDlqConsistency freezeAt db).counts .matched =
      db.deadLetters.rows.countP fun letter => CountedAsMatched freezeAt letter db := by
  simp only [Postgres.getDlqConsistency, Postgres.categoryIds, Postgres.frozenLetters, reduceCtorEq,
    if_false, List.filter_map, List.filter_filter, List.length_map, List.countP_eq_length_filter]
  refine congrArg List.length (List.filter_congr fun letter _ => ?_)
  rw [Bool.eq_iff_iff, decide_eq_true_iff]
  simp [CountedAsMatched, and_comm]

/-! ## Envelopes hold their jobs -/

/-- An envelope after a call: one that was there, perhaps with a new status, or a sealed job. -/
inductive EnvelopeOrigin (env : Env) (db : Db) (envelope : EnvelopeRow) : Prop where
  | kept {old} (mem : old ∈ db.envelopes) (eq : envelope = old)
  | marked {old} (mem : old ∈ db.envelopes) (status : EnvelopeStatus) (now : Instant)
      (eq : envelope = old.setStatus status now)
  | sealed {input job iv ciphertext} (now : Instant) (parse : parseQueueJob env.zod input = some job)
      (encrypted : env.encryptJson iv job.toJson = some ciphertext)
      (eq : envelope = EnvelopeRow.active env job ciphertext now)

/-- Where an envelope comes from that was marked where a condition holds. -/
theorem EnvelopeOrigin.of_update {env : Env} {db : Db} {envelope : EnvelopeRow}
    {p : EnvelopeRow → Bool} {status : EnvelopeStatus} {now : Instant}
    (h : envelope ∈ db.envelopes.update p (EnvelopeRow.setStatus status now)) :
    EnvelopeOrigin env db envelope := by
  obtain ⟨old, hold, rfl⟩ := Table.mem_update.mp h
  split
  · exact .marked hold status now rfl
  · exact .kept hold rfl

/-- An envelope was there before a call, or is the one of a job that it claims. -/
theorem envelopeOrigin {env : Env} {db : Db} {input : Instant × ControlCall} {envelope : EnvelopeRow}
    (h : envelope ∈ ((controlMachine env).next db input).envelopes) :
    EnvelopeOrigin env db envelope := by
  obtain ⟨now, call⟩ := input
  -- a claim seals, a finish and a replay update or delete, and no other call writes
  cases call with
  | job call =>
    cases call with
    | claim iv body =>
      have houtcome := claimJob_outcome .postgres env now iv body db
      replace h : envelope ∈ (Backend.claimJob env now iv body db .postgres).1.envelopes := h
      generalize Backend.claimJob env now iv body db .postgres = result at h houtcome
      cases houtcome with
      | refused | reclaimed => exact .kept h rfl
      | @created job jobs envelopes parse insert sealed =>
        unfold SealedBy at sealed
        split at sealed
        · obtain ⟨ciphertext, henc, hsealed⟩ := sealed
          rcases Table.mem_insertUnless? hsealed h with hold | rfl
          · exact .kept hold rfl
          · exact .sealed now parse henc rfl
        · rw [sealed] at h
          exact .kept h rfl
    | finish jobId result =>
      have houtcome := finishJob_outcome .postgres now jobId result db
      replace h : envelope ∈ (Backend.finishJob now jobId result db .postgres).1.envelopes := h
      generalize Backend.finishJob now jobId result db .postgres = reply at h houtcome
      cases houtcome with
      | threw | settled => exact .kept h rfl
      | finished lookup live finished settlement_eq =>
        rw [finished.envelopes] at h
        unfold finishedEnvelopes at h
        split at h
        · exact .kept (Table.mem_delete.mp h).1 rfl
        · exact .of_update h
        · exact .of_update h
        · exact .kept h rfl
        · exact .kept h rfl
        · exact .kept h rfl
  | effect call =>
    cases call with
    | claim effect =>
      obtain ⟨effects, heq, -⟩ := lookup_claimEffect .postgres now effect db
      replace h : envelope ∈ (Backend.claimEffect now effect db .postgres).1.envelopes := h
      rw [heq] at h
      exact .kept h rfl
    | finish effectKey result => exact .kept h rfl
  | replay jobId replayInput =>
    have houtcome := replayDeadLetter_outcome env now jobId replayInput db
    replace h : envelope ∈
      (transact db (Postgres.replayDeadLetter env now jobId replayInput db)).1.envelopes := h
    generalize transact db (Postgres.replayDeadLetter env now jobId replayInput db) = reply
      at h houtcome
    cases houtcome with
    | unchanged => exact .kept h rfl
    | published published =>
      rw [published.envelopes] at h
      exact .of_update h

/-- Every envelope holds a job of its id. -/
def EnvelopesOpen (env : Env) (db : Db) : Prop :=
  ∀ envelope ∈ db.envelopes, ∃ job, Opens env envelope job

/-- Every envelope opens, after every call. -/
theorem EnvelopesOpen.next {env : Env} (hround : env.RoundTrips) (hzod : env.zod.Lawful) {db : Db}
    (h : EnvelopesOpen env db) (input : Instant × ControlCall) :
    EnvelopesOpen env ((controlMachine env).next db input) := by
  intro envelope henvelope
  cases envelopeOrigin henvelope with
  | kept mem eq => exact eq ▸ h _ mem
  | marked mem status now eq =>
    obtain ⟨job, hjob⟩ := h _ mem
    rw [eq]
    exact ⟨job, hjob.valid, hjob.jobId, hjob.schemaVersion, hjob.digest, hjob.opens⟩
  | @sealed input job iv ciphertext now parse encrypted eq =>
    rw [eq]
    exact ⟨job, parseQueueJob_valid hzod parse, rfl, rfl, rfl, hround iv _ _ encrypted⟩

/-! ## Letters of dead jobs -/

/-- A dead job's letter that names an envelope names a dead one, with the digest of the letter. -/
def LettersMatch (db : Db) : Prop :=
  ∀ row ∈ db.jobs, row.status = .dead →
    ∀ letter, db.deadLetters.lookup DeadLetterRow.jobId row.jobId = some letter →
      letter.envelopeJobId.isSome = true →
        ∃ envelope ∈ db.envelopes, envelope.jobId = row.jobId ∧ envelope.status = .dead ∧
          envelope.payloadDigest = letter.payloadDigest

namespace LettersMatch

variable {env : Env} {now : Instant} {db : Db}

theorem of_keepsDead {db' : Db} (h : LettersMatch db) (hkeeps : KeepsDead db db')
    (hdead : ∀ row ∈ db'.jobs, row.status = .dead → row ∈ db.jobs)
    (hletters : db'.deadLetters = db.deadLetters) : LettersMatch db' := by
  intro row hrow hs letter hletter hnamed
  rw [hletters] at hletter
  obtain ⟨envelope, henv, hid, hdeadEnv, hdigest⟩ := h row (hdead row hrow hs) hs letter hletter hnamed
  exact ⟨envelope, hkeeps.envelopes envelope henv hdeadEnv, hid, hdeadEnv, hdigest⟩

/-- The digest of a new letter is that of the envelope that it names. -/
theorem digest_of_writesLetter {jobId : String} {input : JobResult} {row : JobRow}
    {envelopes : Table EnvelopeRow} {envelope : EnvelopeRow} {letter : DeadLetterRow}
    (henv : envelopes.lookup EnvelopeRow.jobId jobId = some envelope)
    (h : writesLetter now jobId input row envelopes = some letter) :
    letter.payloadDigest = envelope.payloadDigest := by
  cases input with
  | failed errorClass errorMessage payloadDigest =>
    simp only [writesLetter] at h
    split at h
    · obtain ⟨digest, hdigest, rfl⟩ := Option.map_eq_some_iff.mp h
      rw [henv] at hdigest
      simp only [deadLetterDigest, Option.map_some, Option.some_or,
        Option.filter_eq_some_iff] at hdigest
      exact (Option.some.inj hdigest.1).symm
    · cases h
  | done | deferred | uncertain => cases h

/-- A finish leaves letters matching. -/
theorem finish (hinv : EnvelopeInv db) (h : LettersMatch db) {jobId : String} {input : JobResult}
    {result : Db × Except ErrorText Settlement}
    (hfinish : FinishOutcome now jobId input db result) : LettersMatch result.1 := by
  have hkeeps := hfinish.keepsDead hinv
  cases hfinish with
  | threw | settled => exact h
  | @finished taken db' settlement lookup live finished settlement_eq =>
    have hid : taken.jobId = jobId := Table.lookup_key lookup
    intro row hrow hs letter hletter hnamed
    rw [show (db', Except.ok settlement).1.jobs = _ from finished.jobs] at hrow
    obtain ⟨old, hold, heq⟩ := Table.mem_update.mp hrow
    by_cases hmet : old.jobId = jobId
    · -- The row that dies now: its letter is new, and so names what is there.
      have hsame : old = taken := Table.eq_of_conflict hold (Table.lookup_mem lookup)
        (JobRow.isKey_jobId _ _ (hmet.trans hid.symm))
      rw [if_pos (decide_eq_true hmet), hsame] at heq
      have hdead : (taken.finish input now).status = .dead := by rw [heq]; exact hs
      have hrowid : row.jobId = jobId := by rw [← heq, JobRow.finish_jobId, hid]
      obtain ⟨new, written, hnew, hwritten, hrewrite⟩ := finished.letter_written hdead
      rw [hrowid] at hletter ⊢
      obtain rfl : written = letter := Option.some.inj (hwritten.symm.trans hletter)
      have hnewEnv : new.envelopeJobId = written.envelopeJobId :=
        (congrArg DeadLetterRow.envelopeJobId hrewrite :)
      have hnewDigest : new.payloadDigest = written.payloadDigest :=
        (congrArg DeadLetterRow.payloadDigest hrewrite :)
      rw [← hnewEnv, (writesLetter_envelope hnew).2, Option.isSome_map] at hnamed
      obtain ⟨envelope, henv⟩ := Option.isSome_iff_exists.mp hnamed
      have henvid : envelope.jobId = jobId := Table.lookup_key henv
      refine ⟨envelope.setStatus .dead now, ?_, henvid, rfl, ?_⟩
      · show _ ∈ db'.envelopes
        rw [finished.envelopes, hdead]
        exact Table.mem_update_of (Table.lookup_mem henv) (decide_eq_true henvid)
      · rw [← hnewDigest, digest_of_writesLetter henv hnew]
        rfl
    · rw [if_neg (by simpa using hmet)] at heq
      subst heq
      rw [show (db', Except.ok settlement).1.deadLetters = _ from rfl,
        finished.letter_other hmet] at hletter
      obtain ⟨envelope, henv, henvid, hdeadEnv, hdigest⟩ := h old hold hs letter hletter hnamed
      exact ⟨envelope, hkeeps.envelopes envelope henv hdeadEnv, henvid, hdeadEnv, hdigest⟩

theorem replay (hinv : EnvelopeInv db) (h : LettersMatch db) {jobId : String}
    {input : ReplayInput} {result : Db × Except ErrorText ReplayReply}
    (hreplay : ReplayOutcome env now jobId input db result) : LettersMatch result.1 := by
  cases hreplay with
  | unchanged => exact h
  | @published db' job envelopeJobId published =>
    obtain ⟨rfl, -⟩ := hinv.openEnvelope published.opened
    intro row hrow hs letter hletter hnamed
    rw [show (db', Except.ok Postgres.publishedReply).1.jobs = _ from published.jobs] at hrow
    rw [show (db', Except.ok Postgres.publishedReply).1.deadLetters = _ from published.deadLetters]
      at hletter
    obtain ⟨old, hold, heq⟩ := Table.mem_update.mp hrow
    by_cases hmet : (decide (old.jobId = envelopeJobId) && decide (old.status = .dead)) = true
    · rw [if_pos hmet] at heq
      rw [← heq] at hs
      cases hs
    · rw [if_neg hmet] at heq
      subst heq
      have hother : old.jobId ≠ envelopeJobId := by simpa [hs] using hmet
      obtain ⟨envelope, henv, henvid, hdeadEnv, hdigest⟩ := h old hold hs letter hletter hnamed
      refine ⟨envelope, ?_, henvid, hdeadEnv, hdigest⟩
      show envelope ∈ db'.envelopes
      rw [published.envelopes]
      refine Table.mem_update_of_not henv ?_
      rw [henvid]
      simp [hother]

end LettersMatch

/-! ## Reachable databases -/

/-- What holds of dead letters in every reachable database. -/
structure LetterInv (env : Env) (db : Db) : Prop where
  envelopes : EnvelopeInv db
  opens : EnvelopesOpen env db
  letters : LettersMatch db

theorem lettersMatch_next {env : Env} {db : Db} (hinv : EnvelopeInv db) (h : LettersMatch db)
    (input : Instant × ControlCall) : LettersMatch ((controlMachine env).next db input) := by
  obtain ⟨now, call⟩ := input
  cases call with
  | job call =>
    cases call with
    | claim iv body =>
      have houtcome := claimJob_outcome .postgres env now iv body db
      refine h.of_keepsDead houtcome.keepsDead (fun _ => houtcome.of_dead_row) ?_
      show (Backend.claimJob env now iv body db .postgres).1.deadLetters = db.deadLetters
      generalize Backend.claimJob env now iv body db .postgres = result at houtcome
      cases houtcome with
      | refused | created | reclaimed => rfl
    | finish jobId result =>
      exact h.finish hinv (finishJob_outcome .postgres now jobId result db)
  | effect call =>
    cases call with
    | claim effect =>
      obtain ⟨effects, heq, -⟩ := lookup_claimEffect .postgres now effect db
      show LettersMatch (Backend.claimEffect now effect db .postgres).1
      rw [heq]
      exact h
    | finish effectKey result => exact h
  | replay jobId replayInput =>
    exact h.replay hinv (replayDeadLetter_outcome env now jobId replayInput db)

theorem letterInv_next {env : Env} (hround : env.RoundTrips) (hzod : env.zod.Lawful) {db : Db}
    (h : LetterInv env db) (input : Instant × ControlCall) :
    LetterInv env ((controlMachine env).next db input) :=
  ⟨envelopeInv_next h.envelopes, h.opens.next hround hzod input,
    lettersMatch_next h.envelopes h.letters input⟩

theorem letterInv_run {env : Env} (hround : env.RoundTrips) (hzod : env.zod.Lawful)
    (calls : List (Instant × ControlCall)) : LetterInv env ((controlMachine env).run ∅ calls) := by
  have hempty : LetterInv env ∅ := ⟨envelopeInv_empty, fun _ h => absurd h Table.not_mem_empty,
    fun _ h => absurd h Table.not_mem_empty⟩
  exact Machine.run_invariant (I := LetterInv env) (fun _ _ h _ => letterInv_next hround hzod h _)
    hempty (Machine.admits_true calls)

/-! ## What the report and the replay say -/

section Dead

variable {env : Env} {db : Db} {row : JobRow} {letter : DeadLetterRow}

/-- The letter is that of a dead job. -/
structure DeadLetterOf (db : Db) (row : JobRow) (letter : DeadLetterRow) : Prop where
  letter_mem : letter ∈ db.deadLetters
  row_mem : row ∈ db.jobs
  jobId : row.jobId = letter.jobId
  dead : row.status = .dead

theorem DeadLetterOf.lookup_row (h : DeadLetterOf db row letter) :
    db.jobs.lookup JobRow.jobId letter.jobId = some row :=
  (Table.lookup_eq_some JobRow.isKey_jobId).mpr ⟨h.row_mem, h.jobId⟩

theorem DeadLetterOf.lookup_letter (h : DeadLetterOf db row letter) :
    db.deadLetters.lookup DeadLetterRow.jobId letter.jobId = some letter :=
  (Table.lookup_eq_some DeadLetterRow.isKey_jobId).mpr ⟨h.letter_mem, rfl⟩

/-- The envelope that the letter of a dead job names. -/
theorem DeadLetterOf.named (h : DeadLetterOf db row letter) (hinv : LetterInv env db)
    (hnamed : letter.envelopeJobId.isSome = true) :
    letter.envelopeJobId = some letter.jobId ∧
      ∃ envelope, db.envelopes.lookup EnvelopeRow.jobId letter.jobId = some envelope ∧
        envelope.status = .dead ∧ envelope.payloadDigest = letter.payloadDigest := by
  have hletter := h.lookup_letter
  rw [← h.jobId] at hletter
  obtain ⟨envelope, henv, hid, hdead, hdigest⟩ :=
    hinv.letters row h.row_mem h.dead letter hletter hnamed
  refine ⟨?_, envelope, ?_, hdead, hdigest⟩
  · rcases hinv.envelopes.letters letter h.letter_mem with hnone | hsome
    · rw [hnone] at hnamed
      cases hnamed
    · exact hsome
  · exact (Table.lookup_eq_some EnvelopeRow.isKey_jobId).mpr ⟨henv, hid.trans h.jobId⟩

/-- **The report counts a dead job as matched where its letter names an envelope, and no replay of
the job was ever published.** -/
theorem DeadLetterOf.counted_iff (h : DeadLetterOf db row letter) (hinv : LetterInv env db)
    (freezeAt : Instant) :
    CountedAsMatched freezeAt letter db ↔ letter.createdAt ≤ freezeAt ∧
      letter.envelopeJobId.isSome = true ∧ Postgres.replayed letter.jobId db = false := by
  refine and_congr_right fun _ => ?_
  have hstatus : (Postgres.dlqRow letter db).jobStatus = some .dead := by
    simp [Postgres.dlqRow, h.lookup_row, h.dead]
  unfold Postgres.classifyDeadLetter
  rw [hstatus]
  dsimp only
  cases hreplayed : Postgres.replayed letter.jobId db with
  | true => simp [Postgres.dlqRow, hreplayed]
  | false =>
    cases hnamed : letter.envelopeJobId.isSome with
    | false =>
      have hnone : letter.envelopeJobId = none := by simpa using hnamed
      simp [Postgres.dlqRow, hreplayed, hnone]
    | true =>
      obtain ⟨hown, envelope, henv, hdead, hdigest⟩ := h.named hinv hnamed
      have henvid : envelope.jobId = letter.jobId := Table.lookup_key henv
      simp [Postgres.dlqRow, Postgres.namedEnvelope, hreplayed, hown, henv, hdead, hdigest, henvid]

/-- A replay is open exactly where no effect of its job has ended. -/
theorem terminalReason_eq_none_iff (h : DeadLetterOf db row letter) :
    Postgres.terminalReason env letter.jobId db = none ↔ ¬ HasTerminalEffect letter.jobId db := by
  have hjob : ((db.jobs.lookup JobRow.jobId letter.jobId).bind fun job =>
      Postgres.terminalJobReason job.status) = none := by
    simp [h.lookup_row, h.dead, Postgres.terminalJobReason]
  unfold Postgres.terminalReason
  rw [hjob]
  dsimp only
  cases heffect : Postgres.terminalEffect env letter.jobId db.effects with
  | none =>
    refine iff_of_true rfl ?_
    rintro ⟨effect, hmem, hid, hterminal⟩
    rw [Postgres.terminalEffect_eq_none_iff.mp heffect effect hmem hid] at hterminal
    cases hterminal
  | some effect =>
    obtain ⟨hmem, hid, hterminal⟩ := Postgres.terminalEffect_mem heffect
    refine iff_of_false ?_ fun hnot => hnot ⟨effect, hmem, hid, hterminal⟩
    rw [Option.bind_some]
    intro hnone
    cases hs : effect.status with
    | done | uncertain =>
      rw [hs] at hnone
      cases hnone
    | processing | failed =>
      rw [hs] at hterminal
      cases hterminal

/-- **A dry run of the replay validates a dead job where its letter names an envelope, and no effect
of the job is done or uncertain.** -/
theorem DeadLetterOf.validates_iff (h : DeadLetterOf db row letter) (hzod : env.zod.Lawful)
    (hinv : LetterInv env db) (now : Instant) {idempotencyKey : String}
    (hunused : db.replayOperations.lookup ReplayOperationRow.idempotencyKey idempotencyKey = none) :
    Validates env now letter.jobId idempotencyKey db ↔
      letter.envelopeJobId.isSome = true ∧ ¬ HasTerminalEffect letter.jobId db := by
  rw [← terminalReason_eq_none_iff h]
  unfold Validates Postgres.replayDeadLetter
  cases hterminal : Postgres.terminalReason env letter.jobId db with
  | some reason => simp [transact, Postgres.rejected, Postgres.validatedReply]
  | none =>
    simp only [hunused]
    cases hnamed : letter.envelopeJobId.isSome with
    | false =>
      have hnone : letter.envelopeJobId = none := by simpa using hnamed
      have hopen : Postgres.openEnvelope env letter.jobId db = .error "historical_unrecoverable" := by
        unfold Postgres.openEnvelope
        rw [h.lookup_letter, Option.bind_some, hnone]
      simp [hopen, transact, Postgres.rejected, Postgres.validatedReply]
    | true =>
      obtain ⟨hown, envelope, henv, hdead, -⟩ := h.named hinv hnamed
      obtain ⟨job, hjob⟩ := hinv.opens envelope (Table.lookup_mem henv)
      have hopen : Postgres.openEnvelope env letter.jobId db = .ok (job, letter.jobId) :=
        openEnvelope_of_opens hzod h.lookup_letter hown henv hdead hjob
      simp [hopen, transact]

end Dead

/-- What the report says of the letter of a dead job, what the replay says, and when they agree. -/
structure ReportAndReplay (env : Env) (freezeAt now : Instant) (idempotencyKey : String)
    (letter : DeadLetterRow) (db : Db) : Prop where
  report : CountedAsMatched freezeAt letter db ↔ letter.createdAt ≤ freezeAt ∧
    letter.envelopeJobId.isSome = true ∧ Postgres.replayed letter.jobId db = false
  replay : Validates env now letter.jobId idempotencyKey db ↔
    letter.envelopeJobId.isSome = true ∧ ¬ HasTerminalEffect letter.jobId db
  agree : (CountedAsMatched freezeAt letter db ↔ Validates env now letter.jobId idempotencyKey db) ↔
    (letter.envelopeJobId.isSome = true →
      (letter.createdAt ≤ freezeAt ∧ Postgres.replayed letter.jobId db = false ↔
        ¬ HasTerminalEffect letter.jobId db))

/--
**The report and a dry run of the replay agree on a dead job exactly where its letter names no
envelope, or the job is without a published replay just where it is without a terminal effect**: in
every database that the calls reach from empty tables, under every unused key.
-/
theorem report_and_replay (env : Env) (hround : env.RoundTrips) (hzod : env.zod.Lawful)
    (calls : List (Instant × ControlCall)) (row : JobRow) (letter : DeadLetterRow)
    (freezeAt now : Instant) (idempotencyKey : String)
    (hdead : DeadLetterOf ((controlMachine env).run ∅ calls) row letter)
    (hunused : ((controlMachine env).run ∅ calls).replayOperations.lookup
      ReplayOperationRow.idempotencyKey idempotencyKey = none) :
    ReportAndReplay env freezeAt now idempotencyKey letter ((controlMachine env).run ∅ calls) := by
  have hinv := letterInv_run hround hzod calls
  have hcounted := hdead.counted_iff hinv freezeAt
  have hvalidates := hdead.validates_iff hzod hinv now hunused
  refine ⟨hcounted, hvalidates, ?_⟩
  rw [hcounted, hvalidates]
  tauto

/-- The article dies, and nothing else happens. -/
theorem report_and_replay_buried : ∃ row letter,
    DeadLetterOf ((controlMachine Sample.env).run ∅ buried) row letter ∧
      ReportAndReplay Sample.env 2000 3000 "replay-2" letter
        ((controlMachine Sample.env).run ∅ buried) := by
  have hrows : (∃ letter ∈ ((controlMachine Sample.env).run ∅ buried).deadLetters.rows,
      ∃ row ∈ ((controlMachine Sample.env).run ∅ buried).jobs.rows,
        row.jobId = letter.jobId ∧ row.status = .dead) ∧
      ((controlMachine Sample.env).run ∅ buried).replayOperations.lookup
        ReplayOperationRow.idempotencyKey "replay-2" = none := by decide +kernel
  obtain ⟨⟨letter, hletter, row, hrow, hid, hdead⟩, hunused⟩ := hrows
  refine ⟨row, letter, ⟨hletter, hrow, hid, hdead⟩, ?_⟩
  exact report_and_replay Sample.env Sample.env_roundTrips Sample.zod_lawful buried row letter 2000
    3000 "replay-2" ⟨hletter, hrow, hid, hdead⟩ hunused

/-! ## Where they disagree -/

/-- The article dies again after its replay. -/
def diedAgain : List (Instant × ControlCall) :=
  buried ++ [(2000, .replay Sample.firstId ⟨false, Sample.replayKey⟩),
    (3000, .job (.claim Sample.iv (Sample.articleJob Sample.firstId).toJson)),
    (4000, .job (.finish Sample.firstId (.failed (some .permanent) none (some "digest"))))]

/-- The article dies after one of its effects is done. -/
def diedAfterEffect : List (Instant × ControlCall) :=
  [(0, .job (.claim Sample.iv (Sample.articleJob Sample.firstId).toJson)),
    (1000, .effect (.claim ⟨"cubox", "cubox:article:1", Sample.firstId⟩)),
    (2000, .effect (.finish "cubox:article:1" ⟨.done, none, none⟩)),
    (3000, .job (.finish Sample.firstId (.failed (some .permanent) none (some "digest"))))]

/-- The report and the replay part in both directions: after a second death, and after an effect. -/
theorem report_disagrees :
    (((controlMachine Sample.env).run ∅ diedAgain).replayOperations.lookup
      ReplayOperationRow.idempotencyKey "replay-2" = none ∧
      ∃ letter ∈ ((controlMachine Sample.env).run ∅ diedAgain).deadLetters.rows,
      ∃ row ∈ ((controlMachine Sample.env).run ∅ diedAgain).jobs.rows,
        row.jobId = letter.jobId ∧ row.status = .dead ∧ letter.createdAt ≤ 5000 ∧
        ¬ CountedAsMatched 5000 letter ((controlMachine Sample.env).run ∅ diedAgain) ∧
        Validates Sample.env 6000 letter.jobId "replay-2"
          ((controlMachine Sample.env).run ∅ diedAgain)) ∧
    (((controlMachine Sample.env).run ∅ diedAfterEffect).replayOperations.lookup
      ReplayOperationRow.idempotencyKey "replay-2" = none ∧
      ∃ letter ∈ ((controlMachine Sample.env).run ∅ diedAfterEffect).deadLetters.rows,
      ∃ row ∈ ((controlMachine Sample.env).run ∅ diedAfterEffect).jobs.rows,
        row.jobId = letter.jobId ∧ row.status = .dead ∧
        CountedAsMatched 5000 letter ((controlMachine Sample.env).run ∅ diedAfterEffect) ∧
        ¬ Validates Sample.env 6000 letter.jobId "replay-2"
          ((controlMachine Sample.env).run ∅ diedAfterEffect)) := by
  constructor
  · decide +kernel
  · decide +kernel

end InboxServer
