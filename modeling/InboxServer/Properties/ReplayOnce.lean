import InboxServer.Properties.Envelopes

/-!
# A replay publishes once

Over all runs of the PostgreSQL control plane from empty tables, where only replays put messages
into the inbox.

* `inboxRecorded_run` — every message is that of a recorded operation, so a new operation's message
  is a new one
* `replay_once` — an idempotency key is bound to one job and inserts at most one message, and a
  message is inserted exactly when a dead job and its envelope are opened again
-/

namespace InboxServer

open Infra

/-! ## What a call does to the inbox -/

/-- Every message in the inbox is that of a recorded replay. -/
def InboxRecorded (db : Db) : Prop :=
  ∀ message ∈ db.inbox, ∃ operation ∈ db.replayOperations, operation.messageId = message.messageId

/-- What a replay that inserts a message does, all in one transaction. -/
structure Republishes (env : Env) (now : Instant) (jobId idempotencyKey : String) (db db' : Db) :
    Prop where
  message : ∃ job : QueueJob, job.jobId = jobId ∧ db'.inbox.rows = db.inbox.rows ++
    [InboxRow.staged (Postgres.replayMessageId env jobId idempotencyKey) job.toJson now now]
  operation : Postgres.replayOperation env now jobId idempotencyKey ∈ db'.replayOperations
  /-- The dead job gets a new budget. -/
  job : ∃ row ∈ db.jobs, ∃ row' ∈ db'.jobs, row.jobId = jobId ∧ row.status = .dead ∧
    row'.jobId = jobId ∧ row'.dedupeKey = row.dedupeKey ∧ row'.status = .failed ∧
    row'.failureAttempts = 0
  envelope : ∃ envelope ∈ db.envelopes, ∃ envelope' ∈ db'.envelopes, envelope.jobId = jobId ∧
    envelope.status = .dead ∧ envelope'.jobId = jobId ∧ envelope'.status = .active
  otherJobs : ∀ row : JobRow, row.jobId ≠ jobId → (row ∈ db'.jobs ↔ row ∈ db.jobs)
  otherEnvelopes : ∀ envelope : EnvelopeRow, envelope.jobId ≠ jobId →
    (envelope ∈ db'.envelopes ↔ envelope ∈ db.envelopes)

/-- Nothing dead is opened. -/
structure KeepsDead (db db' : Db) : Prop where
  jobs : ∀ row ∈ db.jobs, row.status = .dead → row ∈ db'.jobs
  envelopes : ∀ envelope ∈ db.envelopes, envelope.status = .dead → envelope ∈ db'.envelopes

/-- What a call of the control plane does to the inbox, and to what is dead. -/
inductive InboxStep (env : Env) (db : Db) (input : Instant × ControlCall) (db' : Db) : Prop where
  | silent (inbox : db'.inbox = db.inbox) (operations : db'.replayOperations = db.replayOperations)
      (dead : KeepsDead db db')
  | inserts (jobId idempotencyKey : String) (call : input.2 = .replay jobId ⟨false, idempotencyKey⟩)
      (fresh : db.replayOperations.lookup ReplayOperationRow.idempotencyKey idempotencyKey = none)
      (operations : db.replayOperations.insert?
        (Postgres.replayOperation env input.1 jobId idempotencyKey) = some db'.replayOperations)
      (republishes : Republishes env input.1 jobId idempotencyKey db db')

section Steps

variable {env : Env} {now : Instant} {db : Db}

theorem KeepsDead.of_eq {db' : Db} (hjobs : db'.jobs = db.jobs)
    (henvelopes : db'.envelopes = db.envelopes) : KeepsDead db db' where
  jobs row h _ := by rw [hjobs]; exact h
  envelopes envelope h _ := by rw [henvelopes]; exact h

/-- A first claim leaves the envelopes that were there. -/
theorem ClaimOutcome.keepsDead {iv : Bytes} {input : Json}
    {result : Db × Except ErrorText ClaimJobReply} (h : ClaimOutcome env now iv input db result) :
    KeepsDead db result.1 where
  jobs _ hrow hs := h.dead_row hrow hs
  envelopes envelope henv hdead := by
    cases h with
    | refused _ => exact henv
    | reclaimed _ _ _ _ => exact henv
    | @created job jobs envelopes parse insert sealed =>
      show envelope ∈ envelopes
      unfold SealedBy at sealed
      split at sealed
      · obtain ⟨ciphertext, -, hsealed⟩ := sealed
        unfold Table.insertUnless? at hsealed
        split at hsealed
        · rw [← Option.some.inj hsealed]
          exact henv
        · exact (Table.mem_insert? hsealed).mpr (Or.inl henv)
      · rw [sealed]
        exact henv

/-- A finish leaves the envelopes of other jobs, and that of a dead job is such a one. -/
theorem FinishOutcome.keepsDead (hinv : EnvelopeInv db) {jobId : String} {input : JobResult}
    {result : Db × Except ErrorText Settlement} (h : FinishOutcome now jobId input db result) :
    KeepsDead db result.1 where
  jobs _ hrow hs := h.dead_row hrow hs
  envelopes envelope henv hdead := by
    cases h with
    | threw => exact henv
    | settled _ _ => exact henv
    | @finished row db' settlement lookup live finished _ =>
      obtain ⟨dead, hmem, hid, hs⟩ := hinv.dead envelope henv hdead
      have hother : envelope.jobId ≠ jobId := by
        intro he
        have hsame : dead = row := Table.eq_of_conflict hmem (Table.lookup_mem lookup)
          (JobRow.isKey_jobId _ _ ((hid.trans he).trans (Table.lookup_key lookup).symm))
        rw [← hsame, hs] at live
        cases live
      have hnot : decide (envelope.jobId = jobId) = false := by simpa using hother
      show envelope ∈ db'.envelopes
      rw [finished.envelopes]
      unfold finishedEnvelopes
      split
      · exact Table.mem_delete.mpr ⟨henv, hnot⟩
      · exact Table.mem_update_of_not henv hnot
      · exact Table.mem_update_of_not henv hnot
      · exact henv
      · exact henv
      · exact henv

theorem inboxStep_job (hinv : EnvelopeInv db) (call : JobCall) :
    InboxStep env db (now, .job call) ((controlMachine env).next db (now, .job call)) := by
  cases call with
  | claim iv body =>
    have houtcome := claimJob_outcome .postgres env now iv body db
    have hdead := houtcome.keepsDead
    show InboxStep env db _ (Backend.postgres.claimJob env now iv body db).1
    cases hresult : Backend.postgres.claimJob env now iv body db with
    | mk db' reply =>
      rw [hresult] at houtcome hdead
      cases houtcome with
      | refused _ => exact .silent rfl rfl hdead
      | created _ _ _ => exact .silent rfl rfl hdead
      | reclaimed _ _ _ _ => exact .silent rfl rfl hdead
  | finish jobId result =>
    have houtcome := finishJob_outcome .postgres now jobId result db
    have hdead := houtcome.keepsDead hinv
    show InboxStep env db _ (Backend.postgres.finishJob now jobId result db).1
    cases hresult : Backend.postgres.finishJob now jobId result db with
    | mk db' reply =>
      rw [hresult] at houtcome hdead
      cases houtcome with
      | threw => exact .silent rfl rfl hdead
      | settled _ _ => exact .silent rfl rfl hdead
      | finished lookup live finished _ =>
        exact .silent finished.inbox finished.replayOperations hdead

theorem inboxStep_effect (call : EffectCall) :
    InboxStep env db (now, .effect call) ((controlMachine env).next db (now, .effect call)) := by
  cases call with
  | claim effect =>
    obtain ⟨effects, heq, -⟩ := lookup_claimEffect .postgres now effect db
    show InboxStep env db _ (Backend.claimEffect now effect db .postgres).1
    rw [heq]
    exact .silent rfl rfl (KeepsDead.of_eq rfl rfl)
  | finish effectKey result => exact .silent rfl rfl (KeepsDead.of_eq rfl rfl)

/-- The message of an operation that is recorded now was not in the inbox. -/
theorem Published.inbox_rows (hrec : InboxRecorded db) {jobId : String} {input : ReplayInput}
    {db' : Db} {job : QueueJob} {envelopeJobId : String}
    (h : Published env now jobId input db db' job envelopeJobId) :
    db'.inbox.rows = db.inbox.rows ++ [InboxRow.staged
      (Postgres.replayMessageId env jobId input.idempotencyKey) job.toJson now now] := by
  have hnew := (Table.insert?_eq_some h.operations).2
  have habsent : db.inbox.rows.any (fun message =>
      message.messageId = Postgres.replayMessageId env jobId input.idempotencyKey) = false := by
    rw [List.any_eq_false]
    intro message hmessage hid
    obtain ⟨operation, hoperation, hsame⟩ := hrec message hmessage
    have hfresh := hnew operation hoperation
    rw [ReplayOperationRow.isKey_messageId operation _ (hsame.trans (of_decide_eq_true hid))]
      at hfresh
    exact Bool.noConfusion hfresh
  have hinbox := h.inbox
  rw [Table.insertUnless?, habsent] at hinbox
  exact (Table.insert?_eq_some hinbox).1

theorem Published.republishes (hinv : EnvelopeInv db) (hrec : InboxRecorded db) {jobId : String}
    {input : ReplayInput} {db' : Db} {job : QueueJob} {envelopeJobId : String}
    (h : Published env now jobId input db db' job envelopeJobId) :
    Republishes env now jobId input.idempotencyKey db db' := by
  obtain ⟨rfl, envelope, henv, henvid, hdead, row, hrow, hid, hs⟩ := hinv.openEnvelope h.opened
  obtain ⟨-, -, -, -, -, -, -, hjob⟩ := openEnvelope_eq_ok h.opened
  constructor
  · exact ⟨job, hjob, h.inbox_rows hrec⟩
  · exact (Table.mem_insert? h.operations).mpr (Or.inr rfl)
  · refine ⟨row, hrow, row.reopen now, ?_, hid, hs, hid, rfl, rfl, rfl⟩
    rw [h.jobs]
    exact Table.mem_update_of hrow (by simp [hid, hs])
  · refine ⟨envelope, henv, envelope.setStatus .active now, ?_, henvid, hdead, henvid, rfl⟩
    rw [h.envelopes]
    exact Table.mem_update_of henv (by simp [henvid, hdead])
  · intro other hother
    rw [h.jobs]
    constructor
    · intro hmem
      obtain ⟨old, hold, heq⟩ := Table.mem_update.mp hmem
      split at heq
      · next hmet =>
        simp only [Bool.and_eq_true, decide_eq_true_eq] at hmet
        rw [← heq] at hother
        exact absurd hmet.1 hother
      · rw [← heq]
        exact hold
    · exact fun hmem => Table.mem_update_of_not hmem (by simp [hother])
  · intro other hother
    rw [h.envelopes]
    constructor
    · intro hmem
      obtain ⟨old, hold, heq⟩ := Table.mem_update.mp hmem
      split at heq
      · next hmet =>
        simp only [Bool.and_eq_true, decide_eq_true_eq] at hmet
        rw [← heq] at hother
        exact absurd hmet.1 hother
      · rw [← heq]
        exact hold
    · exact fun hmem => Table.mem_update_of_not hmem (by simp [hother])

theorem inboxStep (hinv : EnvelopeInv db) (hrec : InboxRecorded db)
    (input : Instant × ControlCall) :
    InboxStep env db input ((controlMachine env).next db input) := by
  obtain ⟨now, call⟩ := input
  cases call with
  | job call => exact inboxStep_job hinv call
  | effect call => exact inboxStep_effect call
  | replay jobId replayInput =>
    have houtcome := replayDeadLetter_outcome env now jobId replayInput db
    show InboxStep env db _ (transact db (Postgres.replayDeadLetter env now jobId replayInput db)).1
    cases hresult : transact db (Postgres.replayDeadLetter env now jobId replayInput db) with
    | mk db' reply =>
      rw [hresult] at houtcome
      cases houtcome with
      | unchanged _ => exact .silent rfl rfl (KeepsDead.of_eq rfl rfl)
      | @published db' job envelopeJobId published =>
        have hwet : replayInput = ⟨false, replayInput.idempotencyKey⟩ := by
          rw [← published.wet]
        exact .inserts jobId replayInput.idempotencyKey (by rw [← hwet]) published.fresh
          published.operations (published.republishes hinv hrec)

theorem inboxRecorded_next (hinv : EnvelopeInv db) (hrec : InboxRecorded db)
    (input : Instant × ControlCall) : InboxRecorded ((controlMachine env).next db input) := by
  have hstep : InboxStep env db input ((controlMachine env).next db input) :=
    inboxStep hinv hrec input
  cases hstep with
  | silent inbox operations dead =>
    intro message hmessage
    rw [inbox] at hmessage
    rw [operations]
    exact hrec message hmessage
  | inserts jobId idempotencyKey call fresh operations republishes =>
    obtain ⟨job, -, hrows⟩ := republishes.message
    intro message hmessage
    rw [← Table.mem_rows, hrows, List.mem_append, List.mem_singleton] at hmessage
    rcases hmessage with hold | rfl
    · obtain ⟨operation, hoperation, hsame⟩ := hrec message hold
      exact ⟨operation, (Table.mem_insert? operations).mpr (Or.inl hoperation), hsame⟩
    · exact ⟨_, republishes.operation, rfl⟩

end Steps

/-! ## Runs -/

variable (env : Env)

theorem inboxRecorded_run (calls : List (Instant × ControlCall)) :
    InboxRecorded ((controlMachine env).run ∅ calls) := by
  induction calls using List.reverseRecOn with
  | nil => exact fun message h => absurd h Table.not_mem_empty
  | append_singleton calls input ih =>
    rw [Machine.run_snoc]
    exact inboxRecorded_next (envelopeInv_run env calls) ih input

theorem inboxStep_run (calls : List (Instant × ControlCall)) (input : Instant × ControlCall) :
    InboxStep env ((controlMachine env).run ∅ calls) input
      ((controlMachine env).run ∅ (calls ++ [input])) := by
  rw [Machine.run_snoc]
  exact inboxStep (envelopeInv_run env calls) (inboxRecorded_run env calls) input

/-- The call puts a message into the inbox. -/
def InsertsMessage (calls : List (Instant × ControlCall)) (input : Instant × ControlCall) : Prop :=
  ((controlMachine env).run ∅ (calls ++ [input])).inbox ≠ ((controlMachine env).run ∅ calls).inbox

/-- What replays do to the inbox and to dead jobs, over all runs from empty tables. -/
structure ReplayOnce : Prop where
  dryRun : ∀ calls now jobId idempotencyKey,
    (controlMachine env).run ∅ (calls ++ [(now, .replay jobId ⟨true, idempotencyKey⟩)]) =
      (controlMachine env).run ∅ calls
  /-- A recorded operation stays the operation of its key, and with it the job id. -/
  bound : ∀ pre mid operation, operation ∈ ((controlMachine env).run ∅ pre).replayOperations →
    operation ∈ ((controlMachine env).run ∅ (pre ++ mid)).replayOperations ∧
    ∀ later ∈ ((controlMachine env).run ∅ (pre ++ mid)).replayOperations,
      later.idempotencyKey = operation.idempotencyKey → later = operation
  /-- A key that is recorded changes nothing any more, whatever job it is used for. -/
  repeated : ∀ calls now jobId input,
    (∃ operation ∈ ((controlMachine env).run ∅ calls).replayOperations,
      operation.idempotencyKey = input.idempotencyKey) →
    (controlMachine env).run ∅ (calls ++ [(now, .replay jobId input)]) =
      (controlMachine env).run ∅ calls
  /-- Only replays insert messages, each with its own key, and with all that belongs to it. -/
  inserts : ∀ calls input, InsertsMessage env calls input →
    ∃ jobId idempotencyKey, input.2 = .replay jobId ⟨false, idempotencyKey⟩ ∧
      Republishes env input.1 jobId idempotencyKey ((controlMachine env).run ∅ calls)
        ((controlMachine env).run ∅ (calls ++ [input]))
  /-- No two calls with one key insert a message. -/
  once : ∀ pre first mid second, InsertsMessage env pre first →
    InsertsMessage env (pre ++ first :: mid) second →
    ∀ now jobId now' jobId' input input', first = (now, .replay jobId input) →
      second = (now', .replay jobId' input') → input.idempotencyKey ≠ input'.idempotencyKey
  /-- A call that inserts no message opens nothing that is dead. -/
  silent : ∀ calls input, ¬ InsertsMessage env calls input →
    KeepsDead ((controlMachine env).run ∅ calls) ((controlMachine env).run ∅ (calls ++ [input]))

variable {env}

theorem bound_run (pre mid : List (Instant × ControlCall)) {operation : ReplayOperationRow}
    (h : operation ∈ ((controlMachine env).run ∅ pre).replayOperations) :
    operation ∈ ((controlMachine env).run ∅ (pre ++ mid)).replayOperations := by
  induction mid using List.reverseRecOn with
  | nil => rwa [List.append_nil]
  | append_singleton mid input ih =>
    rw [← List.append_assoc]
    cases inboxStep_run env (pre ++ mid) input with
    | silent inbox operations dead => rw [operations]; exact ih
    | inserts jobId idempotencyKey call fresh operations republishes =>
      exact (Table.mem_insert? operations).mpr (Or.inl ih)

/-- A replay with a recorded key is answered from the record. -/
theorem replay_repeated {db : Db} {now : Instant} {jobId : String} {input : ReplayInput}
    (h : ∃ operation ∈ db.replayOperations, operation.idempotencyKey = input.idempotencyKey) :
    (controlMachine env).next db (now, .replay jobId input) = db := by
  obtain ⟨operation, hmem, hkey⟩ := h
  have houtcome := replayDeadLetter_outcome env now jobId input db
  show (transact db (Postgres.replayDeadLetter env now jobId input db)).1 = db
  cases hresult : transact db (Postgres.replayDeadLetter env now jobId input db) with
  | mk db' reply =>
    rw [hresult] at houtcome
    cases houtcome with
    | unchanged _ => rfl
    | published published => exact absurd hkey (Table.lookup_eq_none.mp published.fresh operation hmem)

/-- The step of a call that inserts a message. -/
theorem InsertsMessage.step {calls : List (Instant × ControlCall)} {input : Instant × ControlCall}
    (h : InsertsMessage env calls input) :
    ∃ jobId idempotencyKey, input.2 = .replay jobId ⟨false, idempotencyKey⟩ ∧
      ((controlMachine env).run ∅ calls).replayOperations.lookup
        ReplayOperationRow.idempotencyKey idempotencyKey = none ∧
      Republishes env input.1 jobId idempotencyKey ((controlMachine env).run ∅ calls)
        ((controlMachine env).run ∅ (calls ++ [input])) := by
  cases inboxStep_run env calls input with
  | silent inbox operations dead => exact absurd inbox h
  | inserts jobId idempotencyKey call fresh operations republishes =>
    exact ⟨jobId, idempotencyKey, call, fresh, republishes⟩

/-- **A replay publishes once**: one message a key, and one message for each opening of a job. -/
theorem replay_once (env : Env) : ReplayOnce env where
  dryRun calls now jobId idempotencyKey := by
    rw [Machine.run_snoc]
    have houtcome := replayDeadLetter_outcome env now jobId ⟨true, idempotencyKey⟩
      ((controlMachine env).run ∅ calls)
    show (transact _ (Postgres.replayDeadLetter env now jobId ⟨true, idempotencyKey⟩ _)).1 = _
    cases hresult : transact ((controlMachine env).run ∅ calls) (Postgres.replayDeadLetter env now
        jobId ⟨true, idempotencyKey⟩ ((controlMachine env).run ∅ calls)) with
    | mk db' reply =>
      rw [hresult] at houtcome
      cases houtcome with
      | unchanged _ => rfl
      | published published => cases published.wet
  bound pre mid operation h := by
    have hkept := bound_run pre mid h
    refine ⟨hkept, fun later hlater hkey => ?_⟩
    exact Table.eq_of_conflict hlater hkept (ReplayOperationRow.isKey_idempotencyKey _ _ hkey)
  repeated calls now jobId input h := by
    rw [Machine.run_snoc]
    exact replay_repeated h
  inserts calls input h := by
    obtain ⟨jobId, idempotencyKey, hcall, -, hrep⟩ := h.step
    exact ⟨jobId, idempotencyKey, hcall, hrep⟩
  once pre first mid second hfirst hsecond now jobId now' jobId' input input' h1 h2 hsame := by
    obtain ⟨_, key1, hcall1, -, hrep⟩ := hfirst.step
    obtain ⟨_, key2, hcall2, hfresh, -⟩ := hsecond.step
    rw [h1] at hcall1
    rw [h2] at hcall2
    obtain ⟨-, rfl⟩ := ControlCall.replay.inj hcall1
    obtain ⟨-, rfl⟩ := ControlCall.replay.inj hcall2
    -- The first insertion recorded the key, and the record stays.
    have hkept := bound_run (pre ++ [first]) mid hrep.operation
    rw [List.append_assoc] at hkept
    exact Table.lookup_eq_none.mp hfresh _ hkept hsame
  silent calls input h := by
    cases inboxStep_run env calls input with
    | silent inbox operations dead => exact dead
    | inserts jobId idempotencyKey call fresh operations republishes =>
      obtain ⟨job, -, hrows⟩ := republishes.message
      have hsame : ((controlMachine env).run ∅ (calls ++ [input])).inbox =
          ((controlMachine env).run ∅ calls).inbox := not_not.mp h
      rw [hsame] at hrows
      have hlength := congrArg List.length hrows
      simp at hlength

end InboxServer
