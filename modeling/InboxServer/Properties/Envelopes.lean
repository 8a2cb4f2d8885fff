import InboxServer.Properties.Replays

/-!
# Dead envelopes belong to dead jobs

The coupling between the job rows and what is kept under their job ids, over all runs of the
PostgreSQL control plane.

* `envelopeInv_run` — a dead letter names its own job's envelope, and a dead envelope's job is dead
* `Published.rows` — so a replay that publishes opens a row that is dead
-/

namespace InboxServer

open Infra

/-- What the tables of a reachable database say about each other. -/
structure EnvelopeInv (db : Db) : Prop where
  letters : ∀ letter ∈ db.deadLetters,
    letter.envelopeJobId = none ∨ letter.envelopeJobId = some letter.jobId
  dead : ∀ envelope ∈ db.envelopes, envelope.status = .dead →
    ∃ row ∈ db.jobs, row.jobId = envelope.jobId ∧ row.status = .dead

theorem envelopeInv_empty : EnvelopeInv ∅ where
  letters _ h := absurd h Table.not_mem_empty
  dead _ h := absurd h Table.not_mem_empty

/-- The letter of a death names the envelope of its own job, if there is one. -/
theorem writesLetter_envelope {now : Instant} {jobId : String} {input : JobResult} {row : JobRow}
    {envelopes : Table EnvelopeRow} {letter : DeadLetterRow}
    (h : writesLetter now jobId input row envelopes = some letter) :
    letter.jobId = jobId ∧
      letter.envelopeJobId = (envelopes.lookup EnvelopeRow.jobId jobId).map fun _ => jobId := by
  cases input with
  | failed errorClass errorMessage payloadDigest =>
    simp only [writesLetter] at h
    split at h
    · obtain ⟨digest, -, rfl⟩ := Option.map_eq_some_iff.mp h
      exact ⟨rfl, rfl⟩
    · cases h
  | _ => cases h

/-- What a replay has checked of the envelope that it opens. -/
theorem openEnvelope_eq_ok {env : Env} {jobId : String} {db : Db} {job : QueueJob}
    {envelopeJobId : String}
    (h : Postgres.openEnvelope env jobId db = .ok (job, envelopeJobId)) :
    ∃ letter envelope, db.deadLetters.lookup DeadLetterRow.jobId jobId = some letter ∧
      letter.envelopeJobId = some envelopeJobId ∧
      db.envelopes.lookup EnvelopeRow.jobId envelopeJobId = some envelope ∧
      envelope.status = .dead ∧
      (env.decryptJson envelope.ciphertext).bind (parseQueueJob env.zod) = some job ∧
      job.jobId = jobId := by
  unfold Postgres.openEnvelope at h
  split at h
  · cases h
  · cases h
  · next id hid =>
    obtain ⟨letter, hletter, hnamed⟩ := Option.bind_eq_some_iff.mp hid
    split at h
    · cases h
    · next envelope henv =>
      split_ifs at h with hdead
      split at h
      · cases h
      · next found hfound =>
        split_ifs at h with hmismatch
        obtain ⟨rfl, rfl⟩ := Prod.mk.inj (Except.ok.inj h)
        simp only [not_or, not_not] at hmismatch hdead
        exact ⟨letter, envelope, hletter, hnamed, henv, hdead, hfound, hmismatch.1⟩

/-! ## What is dead stays -/

section Dead

variable {env : Env} {now : Instant} {db : Db} {row : JobRow} {envelope : EnvelopeRow}

/-- A claim takes no row that is dead. -/
theorem ClaimOutcome.dead_row {iv : Bytes} {input : Json}
    {result : Db × Except ErrorText ClaimJobReply} (h : ClaimOutcome env now iv input db result)
    (hrow : row ∈ db.jobs) (hs : row.status = .dead) : row ∈ result.1.jobs := by
  cases h with
  | refused _ => exact hrow
  | created parse insert sealed => exact (Table.mem_insert? insert).mpr (Or.inl hrow)
  | @reclaimed job taken jobs parse lookup claimable update =>
    refine Table.mem_update?_of_not update hrow ?_
    rw [decide_eq_false_iff_not]
    intro hkey
    have hsame : row = taken := Table.eq_of_conflict hrow (Table.lookup_mem lookup)
      (JobRow.isKey_dedupeKey _ _ (hkey.trans (Table.lookup_key lookup).symm))
    have hlive := claimable.live
    rw [← hsame, hs] at hlive
    cases hlive

/-- The envelope that a claim adds is not dead. -/
theorem ClaimOutcome.of_dead_envelope {iv : Bytes} {input : Json}
    {result : Db × Except ErrorText ClaimJobReply} (h : ClaimOutcome env now iv input db result)
    (henv : envelope ∈ result.1.envelopes) (hdead : envelope.status = .dead) :
    envelope ∈ db.envelopes := by
  cases h with
  | refused _ => exact henv
  | reclaimed _ _ _ _ => exact henv
  | @created job jobs envelopes parse insert sealed =>
    unfold SealedBy at sealed
    split at sealed
    · obtain ⟨ciphertext, -, hsealed⟩ := sealed
      rcases Table.mem_insertUnless? hsealed henv with hold | rfl
      · exact hold
      · cases hdead
    · rw [← sealed]
      exact henv

/-- A finish takes no row that is dead. -/
theorem FinishOutcome.dead_row {jobId : String} {input : JobResult}
    {result : Db × Except ErrorText Settlement} (h : FinishOutcome now jobId input db result)
    (hrow : row ∈ db.jobs) (hs : row.status = .dead) : row ∈ result.1.jobs := by
  cases h with
  | threw => exact hrow
  | settled _ _ => exact hrow
  | @finished taken db' settlement lookup live finished _ =>
    show row ∈ db'.jobs
    rw [finished.jobs]
    refine Table.mem_update_of_not hrow ?_
    rw [decide_eq_false_iff_not]
    intro hid
    have hsame : row = taken := Table.eq_of_conflict hrow (Table.lookup_mem lookup)
      (JobRow.isKey_jobId _ _ (hid.trans (Table.lookup_key lookup).symm))
    rw [← hsame, hs] at live
    cases live

/-- An envelope that is dead after a finish was so before, or is that of a job that dies. -/
theorem mem_finishedEnvelopes {jobId : String} {status : JobStatus} {envelopes : Table EnvelopeRow}
    (h : envelope ∈ finishedEnvelopes jobId status now envelopes) (hdead : envelope.status = .dead) :
    envelope ∈ envelopes ∨ (envelope.jobId = jobId ∧ status = .dead) := by
  have hupdate : ∀ s : EnvelopeStatus, envelope ∈ envelopes.update (fun e => e.jobId = jobId)
      (EnvelopeRow.setStatus s now) →
      envelope ∈ envelopes ∨ (envelope.jobId = jobId ∧ envelope.status = s) := by
    intro s hmem
    obtain ⟨e, he, heq⟩ := Table.mem_update.mp hmem
    by_cases hj : e.jobId = jobId
    · rw [if_pos (decide_eq_true hj)] at heq
      rw [← heq]
      exact Or.inr ⟨hj, rfl⟩
    · rw [if_neg (by simpa using hj)] at heq
      exact Or.inl (heq ▸ he)
  cases status with
  | dead => exact (hupdate .dead h).imp_right fun hown => ⟨hown.1, rfl⟩
  | uncertain =>
    rcases hupdate .uncertain h with hold | ⟨-, hs⟩
    · exact Or.inl hold
    · rw [hdead] at hs
      cases hs
  | done => exact Or.inl (Table.mem_delete.mp h).1
  | processing | deferred | failed => exact Or.inl h

end Dead

namespace EnvelopeInv

variable {env : Env} {now : Instant} {db : Db}

theorem claim (h : EnvelopeInv db) {iv : Bytes} {input : Json}
    {result : Db × Except ErrorText ClaimJobReply}
    (hclaim : ClaimOutcome env now iv input db result) : EnvelopeInv result.1 where
  letters := by
    cases hclaim with
    | refused _ | created _ _ _ | reclaimed _ _ _ _ => exact h.letters
  dead envelope henv hdead := by
    obtain ⟨row, hrow, hid, hs⟩ := h.dead envelope (hclaim.of_dead_envelope henv hdead) hdead
    exact ⟨row, hclaim.dead_row hrow hs, hid, hs⟩

theorem finish (h : EnvelopeInv db) {jobId : String} {input : JobResult}
    {result : Db × Except ErrorText Settlement}
    (hfinish : FinishOutcome now jobId input db result) : EnvelopeInv result.1 := by
  have hkept : ∀ row ∈ db.jobs, row.status = .dead → row ∈ result.1.jobs :=
    fun _ hrow hs => hfinish.dead_row hrow hs
  cases hfinish with
  | threw => exact h
  | settled _ _ => exact h
  | @finished row db' settlement lookup live finished _ =>
    have hid : row.jobId = jobId := Table.lookup_key lookup
    constructor
    · intro letter hletter
      rw [show (db', Except.ok settlement).1.deadLetters = _ from finished.deadLetters] at hletter
      cases hw : writesLetter now jobId input row db.envelopes with
      | none =>
        rw [hw] at hletter
        exact h.letters letter hletter
      | some new =>
        rw [hw] at hletter
        obtain ⟨hnewid, hnewenv⟩ := writesLetter_envelope hw
        have hnew : new.envelopeJobId = none ∨ new.envelopeJobId = some jobId := by
          rw [hnewenv]
          cases db.envelopes.lookup EnvelopeRow.jobId jobId with
          | none => exact Or.inl rfl
          | some envelope => exact Or.inr rfl
        rcases Table.mem_upsert hletter with hmem | rfl | ⟨old, -, hconflict, rfl⟩
        · exact h.letters letter hmem
        · rw [hnewid]; exact hnew
        · have holdid : old.jobId = jobId := (of_decide_eq_true hconflict).trans hnewid
          show new.envelopeJobId = none ∨ new.envelopeJobId = some old.jobId
          rw [holdid]; exact hnew
    · intro envelope henv hdead
      rw [show (db', Except.ok settlement).1.envelopes = _ from finished.envelopes] at henv
      -- A dead envelope was dead before, or it is that of a job that dies now.
      rcases mem_finishedEnvelopes henv hdead with hold | ⟨hown, hdies⟩
      · obtain ⟨r, hr, hrid, hrs⟩ := h.dead envelope hold hdead
        exact ⟨r, hkept r hr hrs, hrid, hrs⟩
      · refine ⟨row.finish input now, ?_, ?_, hdies⟩
        · show _ ∈ db'.jobs
          rw [finished.jobs]
          exact Table.mem_update_of (Table.lookup_mem lookup) (decide_eq_true hid)
        · rw [JobRow.finish_jobId, hid, hown]

theorem openEnvelope {jobId : String} {job : QueueJob} {envelopeJobId : String}
    (h : EnvelopeInv db) (hopen : Postgres.openEnvelope env jobId db = .ok (job, envelopeJobId)) :
    envelopeJobId = jobId ∧ ∃ envelope ∈ db.envelopes, envelope.jobId = jobId ∧
      envelope.status = .dead ∧ ∃ row ∈ db.jobs, row.jobId = jobId ∧ row.status = .dead := by
  obtain ⟨letter, envelope, hletter, hnamed, henv, hdead, -, -⟩ := openEnvelope_eq_ok hopen
  have hid : letter.jobId = jobId := Table.lookup_key hletter
  have hsame : envelopeJobId = jobId := by
    rcases h.letters letter (Table.lookup_mem hletter) with hnone | hsome
    · rw [hnone] at hnamed; cases hnamed
    · rw [hsome, hid] at hnamed; exact (Option.some.inj hnamed).symm
  have henvid : envelope.jobId = jobId := (Table.lookup_key henv).trans hsame
  obtain ⟨row, hrow, hrowid, hs⟩ := h.dead envelope (Table.lookup_mem henv) hdead
  exact ⟨hsame, envelope, Table.lookup_mem henv, henvid, hdead, row, hrow, hrowid.trans henvid, hs⟩

theorem replay (h : EnvelopeInv db) {jobId : String} {input : ReplayInput}
    {result : Db × Except ErrorText ReplayReply}
    (hreplay : ReplayOutcome env now jobId input db result) : EnvelopeInv result.1 := by
  cases hreplay with
  | unchanged _ => exact h
  | @published db' job envelopeJobId published =>
    obtain ⟨rfl, -⟩ := h.openEnvelope published.opened
    refine ⟨?_, fun envelope henv hdead => ?_⟩
    · show ∀ letter ∈ db'.deadLetters, _
      rw [published.deadLetters]
      exact h.letters
    · rw [show (db', Except.ok Postgres.publishedReply).1.envelopes = _ from published.envelopes]
        at henv
      show ∃ r ∈ db'.jobs, _
      rw [published.jobs]
      obtain ⟨e, he, heq⟩ := Table.mem_update.mp henv
      by_cases hmet : (decide (e.jobId = envelopeJobId) && decide (e.status = .dead)) = true
      · rw [if_pos hmet] at heq
        rw [← heq] at hdead
        cases hdead
      · rw [if_neg hmet] at heq
        rw [← heq] at hdead ⊢
        obtain ⟨row, hrow, hid, hs⟩ := h.dead e he hdead
        have hne : ¬ e.jobId = envelopeJobId := by simpa [hdead] using hmet
        refine ⟨row, Table.mem_update_of_not hrow ?_, hid, hs⟩
        rw [hid]
        simp [hne]

end EnvelopeInv

/-- One call of the control plane keeps the tables coupled. -/
theorem envelopeInv_next {env : Env} {db : Db} {input : Instant × ControlCall}
    (h : EnvelopeInv db) : EnvelopeInv ((controlMachine env).next db input) := by
  obtain ⟨now, call⟩ := input
  cases call with
  | job call =>
    cases call with
    | claim iv body => exact h.claim (claimJob_outcome .postgres env now iv body db)
    | finish jobId result => exact h.finish (finishJob_outcome .postgres now jobId result db)
  | effect call =>
    cases call with
    | claim effect =>
      obtain ⟨effects, heq, -⟩ := lookup_claimEffect .postgres now effect db
      show EnvelopeInv (Backend.claimEffect now effect db .postgres).1
      rw [heq]
      exact ⟨h.letters, h.dead⟩
    | finish effectKey result => exact ⟨h.letters, h.dead⟩
  | replay jobId replayInput => exact h.replay (replayDeadLetter_outcome env now jobId replayInput db)

/-- **In every reachable database, dead envelopes belong to dead jobs.** -/
theorem envelopeInv_run (env : Env) (calls : List (Instant × ControlCall)) :
    EnvelopeInv ((controlMachine env).run ∅ calls) :=
  Machine.run_invariant (fun _ _ h _ => envelopeInv_next h) envelopeInv_empty
    (Machine.admits_true calls)

/-- A replay publishes a job that is dead, and opens its row. -/
theorem Published.rows {env : Env} {now : Instant} {jobId : String} {input : ReplayInput}
    {db db' : Db} {job : QueueJob} {envelopeJobId : String} (hinv : EnvelopeInv db)
    (h : Published env now jobId input db db' job envelopeJobId) :
    ∃ row, jobRow row.dedupeKey db = some row ∧ row.jobId = jobId ∧ row.status = .dead ∧
      ∀ k, jobRow k db' = if row.dedupeKey = k then some (row.reopen now) else jobRow k db := by
  obtain ⟨-, -, -, -, -, row, hrow, hid, hs⟩ := hinv.openEnvelope h.opened
  have hlookup : jobRow row.dedupeKey db = some row := jobRow_eq_some.mpr ⟨hrow, rfl⟩
  refine ⟨row, hlookup, hid, hs, fun k => ?_⟩
  have hafter : jobRow k db' = (jobRow k db).map fun r =>
      if (decide (r.jobId = jobId) && decide (r.status = .dead)) = true then r.reopen now
      else r := by
    have hkeeps : ∀ r : JobRow, (r.reopen now).dedupeKey = r.dedupeKey := fun _ => rfl
    rw [jobRow, h.jobs, Table.lookup_update hkeeps]
    rfl
  rw [hafter]
  split
  · next hk =>
    rw [← hk, hlookup]
    simp [hid, hs]
  · next hk =>
    cases hr : jobRow k db with
    | none => rfl
    | some other =>
      have hne : other.jobId ≠ jobId := fun he => hk (jobRow_inj hlookup hr (hid.trans he.symm))
      simp [hne]

end InboxServer
