import InboxServer.Infra.Interleave
import InboxServer.Api.Backend
import InboxServer.Api.D1.Replay
import InboxServer.Properties.Inbox
import InboxServer.Properties.Sample

/-!
# Replays that race on D1

Any number of replays of one dead article job interleave, statement by statement, under equal or
different idempotency keys. The batch of a replay opens the job only if it is dead, but inserts its
message whatever the job is.

* `one_replay` — as long as no call publishes after another key has, one message is inserted
* `two_replays` — two keys that both read the dead job: two messages
-/

namespace InboxServer.D1

open Infra
open Postgres (replayMessageId replayOperation publishedReply recordedReply rejected)

/-! ## Calls that interleave -/

/-- The database, and the ids of the messages that replays have inserted. -/
structure ReplayBook where
  db : Db
  inserted : List String

/-- The message that a step puts into the inbox. -/
def ReplayStep.inserts (before after : Table InboxRow) : ReplayStep → Option String
  | publish _ message =>
    if (inboxRow message.messageId before).isNone ∧ (inboxRow message.messageId after).isSome then
      some message.messageId
    else none
  | _ => none

def serveReplayBook (now : Instant) (s : ReplayBook) (c : ReplayStep) : ReplayBook × c.Answer :=
  let served := serveReplay now s.db c
  ({ db := served.1
     inserted := s.inserted ++ (c.inserts s.db.inbox served.1.inbox).toList }, served.2)

/-- No notes are taken. -/
def noNote : Watched.Note ReplayBook ReplayStep ReplayStep.Answer Unit := fun _ _ _ _ _ => ()

/-- Replays of one job, each at its own place. -/
abbrev ReplayRace :=
  Watched ℕ ReplayBook ReplayStep ReplayStep.Answer (Except ErrorText ReplayReply) Unit

abbrev replayRaceMachine : Machine ReplayRace (ℕ × Instant) Unit :=
  Watched.machine serveReplayBook noNote

/-- The calls under their idempotency keys, before their first steps. -/
def ReplayRace.start (env : Env) (jobId : String) (db : Db) (keys : ℕ → Option String) :
    ReplayRace where
  pool :=
    { shared := { db, inserted := [] }
      procs := fun i => (keys i).map fun key => replayDeadLetter env jobId ⟨false, key⟩ }
  notes _ := ()

/-- The operation of an idempotency key. -/
def operationOf (key : String) (db : Db) : Option ReplayOperationRow :=
  db.replayOperations.lookup ReplayOperationRow.idempotencyKey key

/--
An article job is dead, and its letter can be replayed. An operation or a message that has the id of
a replay of the job is that of its key.
-/
structure DeadArticle (env : Env) (jobId : String) (db : Db) : Prop where
  named : jobId ≠ ""
  dead : ∃ row, db.jobs.lookup JobRow.jobId jobId = some row ∧ row.status = .dead
  effects : terminalEffect jobId db.effects = none
  letter : ∃ letter, db.deadLetters.lookup DeadLetterRow.jobId jobId = some letter ∧
    letter.envelopeJobId = some jobId
  envelope : ∃ job, envelopeJob env jobId (db.envelopes.lookup EnvelopeRow.jobId jobId) = .ok job
  operations : ∀ operation ∈ db.replayOperations, ∀ key,
    operation.messageId = replayMessageId env jobId key → operation.idempotencyKey = key
  messages : ∀ message ∈ db.inbox, ∀ key,
    message.messageId = replayMessageId env jobId key → (operationOf key db).isSome

/-- A replay of the job is recorded under the key: by its message, or from before. -/
def Recorded (jobId : String) (db₀ : Db) (s : ReplayBook) (key : String) : Prop :=
  ∃ operation, operationOf key s.db = some operation ∧ operation.jobId = jobId ∧
    operation.status = .published ∧
    (operation.messageId ∈ s.inserted ∨ operationOf key db₀ = some operation)

/-- One message is inserted, and the calls answer accordingly. -/
structure OneReplay (jobId : String) (db₀ : Db) (keys : ℕ → Option String) (w : ReplayRace) :
    Prop where
  atMost : w.pool.shared.inserted.length ≤ 1
  one : ∀ i key reply, keys i = some key → operationOf key db₀ = none →
    w.result i = some reply → w.pool.shared.inserted.length = 1
  answers : ∀ i key reply, keys i = some key → w.result i = some reply → ∃ r, reply = .ok r ∧
    ((r.status = .published ∧ Recorded jobId db₀ w.pool.shared key) ∨ r.status = .rejected)

/-- A batch meets the job dead, or an operation under its own key. -/
def ReplayStep.Timely (db : Db) : ReplayStep → Prop
  | publish operation _ =>
    (db.jobs.lookup JobRow.jobId operation.jobId).map JobRow.status = some .dead ∨
      (operationOf operation.idempotencyKey db).isSome
  | _ => True

instance (db : Db) (c : ReplayStep) : Decidable (c.Timely db) := by
  unfold ReplayStep.Timely
  split <;> infer_instance

/-- The next step of a call is no batch after another key has opened the job. -/
def ReplayRace.Timely (w : ReplayRace) (s : ℕ × Instant) : Prop :=
  match w.pool.procs s.1 with
  | some (.call c _) => c.Timely w.pool.shared.db
  | some (.ret _) | none => True

instance (w : ReplayRace) (s : ℕ × Instant) : Decidable (w.Timely s) := by
  unfold ReplayRace.Timely
  split <;> infer_instance

/-! ## The episode -/

/-- The job is dead, or one key has opened it. -/
inductive Episode (env : Env) (jobId : String) (db₀ : Db) (s : ReplayBook) : Prop
  | dead (operations : s.db.replayOperations = db₀.replayOperations)
      (job : (s.db.jobs.lookup JobRow.jobId jobId).map JobRow.status = some .dead)
      (envelope : s.db.envelopes = db₀.envelopes) (inbox : s.db.inbox = db₀.inbox)
      (inserted : s.inserted = [])
  | opened {key : String} {timestamp : Instant} (fresh : operationOf key db₀ = none)
      (operations : db₀.replayOperations.insert? (replayOperation env timestamp jobId key) =
        some s.db.replayOperations)
      (job : (s.db.jobs.lookup JobRow.jobId jobId).map JobRow.status = some .failed)
      (envelope : (s.db.envelopes.lookup EnvelopeRow.jobId jobId).map EnvelopeRow.status =
        some .active)
      (inserted : s.inserted = [replayMessageId env jobId key])

structure EpisodeInv (env : Env) (jobId : String) (db₀ : Db) (s : ReplayBook) : Prop where
  effects : s.db.effects = db₀.effects
  deadLetters : s.db.deadLetters = db₀.deadLetters
  phase : Episode env jobId db₀ s

/-- What was inserted and recorded stays. -/
structure ReplayBook.Grows (s s' : ReplayBook) : Prop where
  operations : ∀ key operation, operationOf key s.db = some operation →
    operationOf key s'.db = some operation
  inserted : ∀ id ∈ s.inserted, id ∈ s'.inserted

theorem ReplayBook.Grows.refl (s : ReplayBook) : s.Grows s :=
  ⟨fun _ _ h => h, fun _ h => h⟩

section Step

variable {env : Env} {jobId : String} {db₀ : Db} {s : ReplayBook} {now : Instant}

/-- A step other than a batch reads. -/
theorem serveReplayBook_read {c : ReplayStep} (h : ∀ operation message, c ≠ .publish operation message) :
    (serveReplayBook now s c).1 = s := by
  cases c with
  | publish operation message => exact absurd rfl (h operation message)
  | now | selectJob | selectTerminalEffect | selectOperation | selectLetter | selectEnvelope =>
    simp [serveReplayBook, serveReplay, ReplayStep.inserts]

/-- The operations of the start are still there. -/
theorem EpisodeInv.operationOf_start (h : EpisodeInv env jobId db₀ s) {key : String}
    {operation : ReplayOperationRow} (hop : operationOf key db₀ = some operation) :
    operationOf key s.db = some operation := by
  cases h.phase with
  | dead operations =>
    rw [operationOf, operations]
    exact hop
  | @opened own timestamp fresh operations job envelope inserted =>
    have hne : ¬ (replayOperation env timestamp jobId own).idempotencyKey = key := by
      intro heq
      have hown : own = key := heq
      rw [hown, hop] at fresh
      cases fresh
    rw [operationOf, Table.lookup_insert? ReplayOperationRow.isKey_idempotencyKey operations,
      if_neg hne]
    exact hop

/-- A key that was not recorded at the start and is recorded now has opened the job. -/
theorem EpisodeInv.opened_of_recorded (h : EpisodeInv env jobId db₀ s) {key : String}
    (hfresh : operationOf key db₀ = none) {operation : ReplayOperationRow}
    (hop : operationOf key s.db = some operation) :
    (∃ timestamp, operation = replayOperation env timestamp jobId key) ∧
      s.inserted = [replayMessageId env jobId key] := by
  cases h.phase with
  | dead operations =>
    rw [operationOf, operations] at hop
    exact absurd (hfresh.symm.trans hop) (by simp)
  | @opened own timestamp fresh operations job envelope inserted =>
    rw [operationOf, Table.lookup_insert? ReplayOperationRow.isKey_idempotencyKey operations] at hop
    split at hop
    · next hown =>
      have hkey : own = key := hown
      subst hkey
      exact ⟨⟨timestamp, (Option.some.inj hop).symm⟩, inserted⟩
    · exact absurd (hfresh.symm.trans hop) (by simp)

/-- The envelope of a letter that can be replayed is dead. -/
theorem DeadArticle.deadEnvelope (hstart : DeadArticle env jobId db₀) :
    ∃ row, db₀.envelopes.lookup EnvelopeRow.jobId jobId = some row ∧ row.status = .dead := by
  obtain ⟨job, hjob⟩ := hstart.envelope
  cases hrow : db₀.envelopes.lookup EnvelopeRow.jobId jobId with
  | none =>
    rw [hrow] at hjob
    cases hjob
  | some row =>
    refine ⟨row, rfl, ?_⟩
    rw [hrow] at hjob
    by_contra hstatus
    simp only [envelopeJob, ne_eq, hstatus, not_false_eq_true, if_true] at hjob
    cases hjob

/-- The batch of a key that is not recorded finds neither its operation nor its message. -/
theorem DeadArticle.free (hstart : DeadArticle env jobId db₀) {key : String}
    (hfresh : operationOf key db₀ = none) (timestamp : Instant) (job : QueueJob) (staged : Instant) :
    (∃ operations, db₀.replayOperations.insert? (replayOperation env timestamp jobId key) =
      some operations) ∧
    (∃ inbox, db₀.inbox.insert? (InboxRow.staged (replayMessageId env jobId key) job.toJson staged
      timestamp) = some inbox) ∧
    inboxRow (replayMessageId env jobId key) db₀.inbox = none := by
  have hmessage : ∀ message ∈ db₀.inbox, message.messageId ≠ replayMessageId env jobId key := by
    intro message hmem hid
    have hsome := hstart.messages message hmem key hid
    rw [hfresh] at hsome
    cases hsome
  refine ⟨Table.insert?_isSome fun operation hmem => ?_, Table.insert?_isSome fun message hmem => ?_,
    Table.lookup_eq_none.mpr hmessage⟩
  · rw [Bool.eq_false_iff]
    intro hconflict
    have hkey : operation.idempotencyKey = key := by
      simp only [Constrained.conflict, Bool.or_eq_true, decide_eq_true_eq] at hconflict
      rcases hconflict with hkey | hid
      · exact hkey
      · exact hstart.operations operation hmem key hid
    exact Table.lookup_eq_none.mp hfresh operation hmem hkey
  · cases hlease : message.leaseId with
    | none => simp [Constrained.conflict, InboxRow.staged, hmessage message hmem, hlease]
    | some leaseId => simp [Constrained.conflict, InboxRow.staged, hmessage message hmem, hlease]

/-- The batch reopens a job that is dead. -/
theorem reopened_job {jobs : Table JobRow} (timestamp : Instant)
    (h : (jobs.lookup JobRow.jobId jobId).map JobRow.status = some .dead) :
    ((jobs.update (fun r => r.jobId = jobId && r.status = .dead)
      (JobRow.reopen timestamp)).lookup JobRow.jobId jobId).map JobRow.status = some .failed := by
  have hkeeps : ∀ r : JobRow, (r.reopen timestamp).jobId = r.jobId := fun _ => rfl
  obtain ⟨row, hrow, hstatus⟩ := Option.map_eq_some_iff.mp h
  rw [Table.lookup_update hkeeps, hrow, Option.map_some, Option.map_some,
    if_pos (by simp [Table.lookup_key hrow, hstatus])]
  rfl

/-- The batch makes an envelope that is dead active. -/
theorem reopened_envelope {envelopes : Table EnvelopeRow} (timestamp : Instant)
    (h : ∃ row, envelopes.lookup EnvelopeRow.jobId jobId = some row ∧ row.status = .dead) :
    ((envelopes.update (fun e => e.jobId = jobId && e.status = .dead)
      (EnvelopeRow.setStatus .active timestamp)).lookup EnvelopeRow.jobId jobId).map
      EnvelopeRow.status = some .active := by
  have hkeeps : ∀ e : EnvelopeRow, (e.setStatus .active timestamp).jobId = e.jobId := fun _ => rfl
  obtain ⟨row, hrow, hstatus⟩ := h
  rw [Table.lookup_update hkeeps, hrow, Option.map_some, Option.map_some,
    if_pos (by simp [Table.lookup_key hrow, hstatus])]
  rfl

/-- A message that was absent, and that the batch has inserted, is noted. -/
theorem inserts_publish (operation : ReplayOperationRow) {message : InboxRow}
    {before after : Table InboxRow} (habsent : inboxRow message.messageId before = none)
    (hmessage : before.insert? message = some after) :
    (ReplayStep.publish operation message).inserts before after = some message.messageId := by
  have hpresent : (inboxRow message.messageId after).isSome := by
    rw [inboxRow, Table.lookup_insert? InboxRow.isKey_messageId hmessage, if_pos rfl]
    rfl
  exact if_pos ⟨by rw [Option.isNone_iff_eq_none]; exact habsent, hpresent⟩

/-- A batch that leaves the inbox as it is has inserted nothing. -/
theorem inserts_publish_same (operation : ReplayOperationRow) (message : InboxRow)
    (inbox : Table InboxRow) : (ReplayStep.publish operation message).inserts inbox inbox = none := by
  refine if_neg fun hboth => ?_
  rw [Option.isNone_iff_eq_none.mp hboth.1] at hboth
  exact Bool.false_ne_true hboth.2

theorem serve_publish (now : Instant) {operation : ReplayOperationRow} {message : InboxRow} {db : Db}
    (h : publishBatch operation message s.db = some db) :
    serveReplayBook now s (.publish operation message) =
      ({ db
         inserted := s.inserted ++
          ((ReplayStep.publish operation message).inserts s.db.inbox db.inbox).toList }, true) := by
  simp only [serveReplayBook, serveReplay, h]

/-- The batch of a new key that meets the job dead opens it. -/
theorem publish_dead (hstart : DeadArticle env jobId db₀) (h : EpisodeInv env jobId db₀ s)
    {key : String} (hfresh : operationOf key db₀ = none) (job : QueueJob)
    (timestamp staged now : Instant) (hoperations : s.db.replayOperations = db₀.replayOperations)
    (hdead : (s.db.jobs.lookup JobRow.jobId jobId).map JobRow.status = some .dead)
    (henvelopes : s.db.envelopes = db₀.envelopes) (hinbox : s.db.inbox = db₀.inbox)
    (hinserted : s.inserted = []) :
    let served := serveReplayBook now s (.publish (replayOperation env timestamp jobId key)
      (InboxRow.staged (replayMessageId env jobId key) job.toJson staged timestamp))
    served.2 = true ∧ s.Grows served.1 ∧ EpisodeInv env jobId db₀ served.1 ∧
      served.1.inserted = [replayMessageId env jobId key] ∧
      operationOf key served.1.db = some (replayOperation env timestamp jobId key) := by
  intro served
  obtain ⟨⟨operations', hins⟩, ⟨inbox', hmessage⟩, habsent⟩ := hstart.free hfresh timestamp job staged
  rw [← hoperations] at hins
  rw [← hinbox] at hmessage habsent
  have hbatch : publishBatch (replayOperation env timestamp jobId key)
      (InboxRow.staged (replayMessageId env jobId key) job.toJson staged timestamp) s.db =
      some { s.db with
        replayOperations := operations'
        inbox := inbox'
        jobs := s.db.jobs.update (fun r => r.jobId = jobId && r.status = .dead)
          (JobRow.reopen timestamp)
        envelopes := s.db.envelopes.update (fun e => e.jobId = jobId && e.status = .dead)
          (EnvelopeRow.setStatus .active timestamp) } := by
    simp only [publishBatch, hins, hmessage, Option.map_some, Option.getD_some]
    rfl
  have hserved := serve_publish now hbatch
  have hinserts := inserts_publish (replayOperation env timestamp jobId key) habsent hmessage
  rw [hinserts, hinserted] at hserved
  rw [show served = _ from hserved]
  have hlookup : ∀ k, operations'.lookup ReplayOperationRow.idempotencyKey k =
      if key = k then some (replayOperation env timestamp jobId key) else operationOf k s.db :=
    fun k => Table.lookup_insert? ReplayOperationRow.isKey_idempotencyKey hins k
  have hactive := reopened_envelope timestamp (henvelopes ▸ hstart.deadEnvelope)
  have hjob := reopened_job timestamp hdead
  refine ⟨rfl, ⟨fun k operation hop => ?_, fun id hid => ?_⟩, ⟨h.effects, h.deadLetters, ?_⟩, rfl,
    (hlookup key).trans (if_pos rfl)⟩
  · have hne : key ≠ k := by
      rintro rfl
      rw [operationOf, hoperations] at hop
      exact absurd (hfresh.symm.trans hop) (by simp)
    exact (hlookup k).trans ((if_neg hne).trans hop)
  · rw [hinserted] at hid
    cases hid
  · rw [hoperations] at hins
    exact .opened hfresh hins hjob hactive rfl

/-- A batch whose key is recorded already does nothing. -/
theorem publish_recorded {key : String} {operation : ReplayOperationRow}
    (hop : operationOf key s.db = some operation) (timestamp now : Instant) (message : InboxRow) :
    serveReplayBook now s (.publish (replayOperation env timestamp jobId key) message) =
      (s, false) := by
  have hbatch : publishBatch (replayOperation env timestamp jobId key) message s.db = none := by
    have hins : s.db.replayOperations.insert? (replayOperation env timestamp jobId key) = none :=
      Table.insert?_of_lookup_eq_some ReplayOperationRow.isKey_idempotencyKey hop
    simp only [publishBatch, hins, Option.map_none]
  simp only [serveReplayBook, serveReplay, hbatch, inserts_publish_same, Option.toList_none,
    List.append_nil]

/-- **The batch of a new key**: it opens the dead job, or its key is recorded already. -/
theorem publish_step (hstart : DeadArticle env jobId db₀) (h : EpisodeInv env jobId db₀ s)
    {key : String} (hfresh : operationOf key db₀ = none) (job : QueueJob)
    (timestamp staged now : Instant)
    (htimely : (ReplayStep.publish (replayOperation env timestamp jobId key)
      (InboxRow.staged (replayMessageId env jobId key) job.toJson staged timestamp)).Timely s.db) :
    let served := serveReplayBook now s (.publish (replayOperation env timestamp jobId key)
      (InboxRow.staged (replayMessageId env jobId key) job.toJson staged timestamp))
    (served.2 = true ∧ s.Grows served.1 ∧ EpisodeInv env jobId db₀ served.1 ∧
        served.1.inserted = [replayMessageId env jobId key] ∧
        operationOf key served.1.db = some (replayOperation env timestamp jobId key)) ∨
      (served.2 = false ∧ served.1 = s ∧ (operationOf key s.db).isSome) := by
  intro served
  cases h.phase with
  | dead operations hdead envelopes inbox inserted =>
    exact Or.inl (publish_dead hstart h hfresh job timestamp staged now operations hdead envelopes
      inbox inserted)
  | opened fresh operations hjob =>
    right
    have hkey : (operationOf key s.db).isSome := by
      rcases htimely with hdead | hsome
      · rw [show s.db.jobs.lookup JobRow.jobId (replayOperation env timestamp jobId key).jobId =
          s.db.jobs.lookup JobRow.jobId jobId from rfl, hjob] at hdead
        cases hdead
      · exact hsome
    obtain ⟨operation, hop⟩ := Option.isSome_iff_exists.mp hkey
    have hserved : served = (s, false) := publish_recorded hop timestamp now _
    rw [hserved]
    exact ⟨rfl, rfl, hkey⟩

end Step

/-! ## What a call knows -/

/-- The key was not recorded at the start, or somebody has opened the job. -/
def Settled (db₀ : Db) (s : ReplayBook) (key : String) : Prop :=
  operationOf key db₀ = none → s.inserted ≠ []

/-- The answer of a call under a key. -/
def Answered (jobId : String) (db₀ : Db) (s : ReplayBook) (key : String)
    (reply : Except ErrorText ReplayReply) : Prop :=
  Settled db₀ s key ∧ ∃ r, reply = .ok r ∧
    ((r.status = .published ∧ Recorded jobId db₀ s key) ∨ r.status = .rejected)

/-- Where a call under a key stands. -/
inductive ReplayStage (env : Env) (jobId : String) (db₀ : Db) (s : ReplayBook) (key : String) :
    ReplayCall → Prop
  | start : ReplayStage env jobId db₀ s key (replayDeadLetter env jobId ⟨false, key⟩)
  | effects : ReplayStage env jobId db₀ s key
      (.call (.selectTerminalEffect jobId) (decideEffect env jobId ⟨false, key⟩))
  | operation : ReplayStage env jobId db₀ s key
      (.call (.selectOperation key) (decideOperation env jobId ⟨false, key⟩))
  | letter (fresh : operationOf key db₀ = none) : ReplayStage env jobId db₀ s key
      (.call (.selectLetter jobId) (decideLetter env jobId ⟨false, key⟩))
  | envelope (fresh : operationOf key db₀ = none) : ReplayStage env jobId db₀ s key
      (.call (.selectEnvelope jobId) (decideEnvelope env jobId ⟨false, key⟩))
  | stamping (fresh : operationOf key db₀ = none) (job : QueueJob) :
      ReplayStage env jobId db₀ s key (publishReplay env jobId key job)
  | staging (fresh : operationOf key db₀ = none) (job : QueueJob) (timestamp : Instant) :
      ReplayStage env jobId db₀ s key
        (.call .now fun staged => runBatch env jobId key job timestamp staged)
  | publishing (fresh : operationOf key db₀ = none) (job : QueueJob) (timestamp staged : Instant) :
      ReplayStage env jobId db₀ s key (runBatch env jobId key job timestamp staged)
  | concurrent (fresh : operationOf key db₀ = none) (recorded : (operationOf key s.db).isSome) :
      ReplayStage env jobId db₀ s key (.call (.selectOperation key) (settleConcurrent jobId))
  | returned {reply : Except ErrorText ReplayReply} (answered : Answered jobId db₀ s key reply) :
      ReplayStage env jobId db₀ s key (.ret reply)

section Stage

variable {env : Env} {jobId : String} {db₀ : Db} {s s' : ReplayBook} {key : String}

theorem Settled.later (h : Settled db₀ s key) (hgrows : s.Grows s') : Settled db₀ s' key := by
  intro hfresh hnone
  obtain ⟨id, hid⟩ := List.exists_mem_of_ne_nil _ (h hfresh)
  have hid' := hgrows.inserted id hid
  rw [hnone] at hid'
  cases hid'

theorem Recorded.later (h : Recorded jobId db₀ s key) (hgrows : s.Grows s') :
    Recorded jobId db₀ s' key := by
  obtain ⟨operation, hop, hjob, hstatus, hwhence⟩ := h
  exact ⟨operation, hgrows.operations key operation hop, hjob, hstatus,
    hwhence.imp_left (hgrows.inserted _)⟩

theorem Answered.later {reply : Except ErrorText ReplayReply}
    (h : Answered jobId db₀ s key reply) (hgrows : s.Grows s') :
    Answered jobId db₀ s' key reply := by
  obtain ⟨hsettled, r, hr, hanswer⟩ := h
  exact ⟨hsettled.later hgrows, r, hr, hanswer.imp_left fun h => ⟨h.1, h.2.later hgrows⟩⟩

/-- Where a call stands does not depend on what is added. -/
theorem ReplayStage.later {p : ReplayCall} (h : ReplayStage env jobId db₀ s key p)
    (hgrows : s.Grows s') : ReplayStage env jobId db₀ s' key p := by
  cases h with
  | start => exact .start
  | effects => exact .effects
  | operation => exact .operation
  | letter fresh => exact .letter fresh
  | envelope fresh => exact .envelope fresh
  | stamping fresh job => exact .stamping fresh job
  | staging fresh job timestamp => exact .staging fresh job timestamp
  | publishing fresh job timestamp staged => exact .publishing fresh job timestamp staged
  | concurrent fresh recorded =>
    obtain ⟨operation, hop⟩ := Option.isSome_iff_exists.mp recorded
    exact .concurrent fresh (by rw [hgrows.operations key operation hop]; rfl)
  | returned answered => exact .returned (answered.later hgrows)

/-- An operation that is found answers the call. -/
theorem answered_recorded (h : EpisodeInv env jobId db₀ s) {operation : ReplayOperationRow}
    (hop : operationOf key s.db = some operation) (hjob : operation.jobId = jobId) :
    Answered jobId db₀ s key (.ok (recordedReply operation)) := by
  refine ⟨fun hfresh => ?_, _, rfl, ?_⟩
  · rw [(h.opened_of_recorded hfresh hop).2]
    exact List.cons_ne_nil _ _
  · cases hstatus : operation.status with
    | rejected => exact Or.inr (by simp [recordedReply, hstatus])
    | published =>
      refine Or.inl ⟨by simp [recordedReply, hstatus], operation, hop, hjob, hstatus, ?_⟩
      cases hold : operationOf key db₀ with
      | none =>
        obtain ⟨⟨timestamp, rfl⟩, hinserted⟩ := h.opened_of_recorded hold hop
        exact Or.inl (by rw [hinserted]; exact List.mem_singleton.mpr rfl)
      | some old =>
        rw [h.operationOf_start hold] at hop
        exact Or.inr hop

/-- A job that is dead or opened again is not terminal. -/
theorem EpisodeInv.notTerminal (h : EpisodeInv env jobId db₀ s) :
    ((s.db.jobs.lookup JobRow.jobId jobId).bind fun job =>
      Postgres.terminalJobReason job.status) = none := by
  have hstatus : ∀ status, (s.db.jobs.lookup JobRow.jobId jobId).map JobRow.status = some status →
      Postgres.terminalJobReason status = none →
      ((s.db.jobs.lookup JobRow.jobId jobId).bind fun job =>
        Postgres.terminalJobReason job.status) = none := by
    intro status hmap hreason
    obtain ⟨row, hrow, rfl⟩ := Option.map_eq_some_iff.mp hmap
    rw [hrow]
    exact hreason
  cases h.phase with
  | dead operations job => exact hstatus _ job rfl
  | opened fresh operations job => exact hstatus _ job rfl

/-- A call that has read the operation of its key answers, or goes on to the letter. -/
theorem replayStage_operation (h : EpisodeInv env jobId db₀ s) :
    ReplayStage env jobId db₀ s key
      (decideOperation env jobId ⟨false, key⟩ (operationOf key s.db)) := by
  cases hop : operationOf key s.db with
  | none =>
    refine .letter ?_
    cases hold : operationOf key db₀ with
    | none => rfl
    | some old => exact absurd ((h.operationOf_start hold).symm.trans hop) (by simp)
  | some operation =>
    by_cases hjob : operation.jobId = jobId
    · simp only [decideOperation, hjob, ne_eq, not_true_eq_false, if_false]
      exact .returned (answered_recorded h hop hjob)
    · simp only [decideOperation, ne_eq, hjob, not_false_eq_true, if_true]
      refine .returned ⟨fun hfresh => ?_, _, rfl, Or.inr rfl⟩
      obtain ⟨⟨timestamp, rfl⟩, -⟩ := h.opened_of_recorded hfresh hop
      exact absurd rfl hjob

/-- A call that has read the envelope publishes, unless another one has opened the job. -/
theorem replayStage_envelope (hstart : DeadArticle env jobId db₀) (h : EpisodeInv env jobId db₀ s)
    (fresh : operationOf key db₀ = none) :
    ReplayStage env jobId db₀ s key (decideEnvelope env jobId ⟨false, key⟩
      (s.db.envelopes.lookup EnvelopeRow.jobId jobId)) := by
  cases h.phase with
  | dead operations job envelope inbox inserted =>
    obtain ⟨job, hjob⟩ := hstart.envelope
    rw [envelope, decideEnvelope, hjob]
    exact .stamping fresh job
  | opened own operations job envelope inserted =>
    obtain ⟨row, hrow, hstatus⟩ := Option.map_eq_some_iff.mp envelope
    rw [hrow]
    simp only [decideEnvelope, envelopeJob, hstatus, ne_eq, reduceCtorEq, not_false_eq_true,
      if_true]
    exact .returned ⟨fun _ => by rw [inserted]; exact List.cons_ne_nil _ _, _, rfl, Or.inr rfl⟩

/-- What a call that has read goes on with. -/
theorem replayStage_read (hstart : DeadArticle env jobId db₀) (h : EpisodeInv env jobId db₀ s)
    {c : ReplayStep} {k : c.Answer → ReplayCall} (hstage : ReplayStage env jobId db₀ s key (.call c k))
    (hread : ∀ operation message, c ≠ .publish operation message) (now : Instant) :
    ReplayStage env jobId db₀ s key (k (serveReplayBook now s c).2) := by
  generalize hp : Prog.call c k = p at hstage
  cases hstage with
  | start =>
    cases hp
    -- the job is dead or already waits again, and neither is terminal
    show ReplayStage env jobId db₀ s key (decideJob env jobId ⟨false, key⟩ _)
    unfold decideJob
    rw [show (serveReplayBook now s (.selectJob jobId)).2 =
      s.db.jobs.lookup JobRow.jobId jobId from rfl, h.notTerminal]
    exact .effects
  | effects =>
    cases hp
    -- no replay touches an effect, so none forbids it
    show ReplayStage env jobId db₀ s key (decideEffect env jobId ⟨false, key⟩ _)
    unfold decideEffect
    rw [show (serveReplayBook now s (.selectTerminalEffect jobId)).2 =
      terminalEffect jobId s.db.effects from rfl, h.effects, hstart.effects]
    exact .operation
  | operation =>
    cases hp
    show ReplayStage env jobId db₀ s key
      (decideOperation env jobId ⟨false, key⟩ (operationOf key s.db))
    exact replayStage_operation h
  | letter fresh =>
    cases hp
    -- its letter names the envelope, and no replay takes it away
    obtain ⟨letter, hletter, henvelope⟩ := hstart.letter
    show ReplayStage env jobId db₀ s key (decideLetter env jobId ⟨false, key⟩ _)
    unfold decideLetter
    rw [show (serveReplayBook now s (.selectLetter jobId)).2 =
      s.db.deadLetters.lookup DeadLetterRow.jobId jobId from rfl, h.deadLetters, hletter,
      Option.bind_some, henvelope]
    split
    · next hnone => cases hnone
    · next hempty => exact absurd (Option.some.inj hempty) hstart.named
    · next envelopeJobId _ hsome =>
      cases hsome
      exact .envelope fresh
  | envelope fresh =>
    cases hp
    show ReplayStage env jobId db₀ s key (decideEnvelope env jobId ⟨false, key⟩
      (s.db.envelopes.lookup EnvelopeRow.jobId jobId))
    exact replayStage_envelope hstart h fresh
  | stamping fresh job =>
    cases hp
    exact .staging fresh job _
  | staging fresh job timestamp =>
    cases hp
    exact .publishing fresh job timestamp _
  | publishing fresh job timestamp staged =>
    cases hp
    exact absurd rfl (hread _ _)
  | concurrent fresh recorded =>
    cases hp
    -- somebody else's record is there: it is answered as it stands
    obtain ⟨operation, hop⟩ := Option.isSome_iff_exists.mp recorded
    obtain ⟨⟨timestamp, rfl⟩, hinserted⟩ := h.opened_of_recorded fresh hop
    have hanswered := answered_recorded h hop rfl
    show ReplayStage env jobId db₀ s key (settleConcurrent jobId (operationOf key s.db))
    rw [hop]
    simp only [settleConcurrent, replayOperation, ne_eq, not_true_eq_false, or_self, if_false]
    exact .returned hanswered
  | returned answered => cases hp

/-- **What a call knows after its next step.** -/
theorem replayStage_step (hstart : DeadArticle env jobId db₀) (h : EpisodeInv env jobId db₀ s)
    {c : ReplayStep} {k : c.Answer → ReplayCall}
    (hstage : ReplayStage env jobId db₀ s key (.call c k)) (htimely : c.Timely s.db) (now : Instant) :
    s.Grows (serveReplayBook now s c).1 ∧ EpisodeInv env jobId db₀ (serveReplayBook now s c).1 ∧
      ReplayStage env jobId db₀ (serveReplayBook now s c).1 key (k (serveReplayBook now s c).2) := by
  by_cases hpublish : ∃ operation message, c = .publish operation message
  · obtain ⟨operation, message, rfl⟩ := hpublish
    generalize hp : Prog.call (ReplayStep.publish operation message) k = p at hstage
    cases hstage with
    | publishing fresh job timestamp staged =>
      cases hp
      rcases publish_step hstart h fresh job timestamp staged now htimely with
        ⟨hdone, hgrows, hinv, hinserted, hop⟩ | ⟨hdone, hsame, hrecorded⟩
      · refine ⟨hgrows, hinv, ?_⟩
        rw [hdone]
        exact .returned (answered_recorded hinv hop rfl)
      · rw [hsame]
        refine ⟨.refl s, h, ?_⟩
        rw [hdone]
        exact .concurrent fresh hrecorded
    | start | effects | operation | letter | envelope | stamping | staging | concurrent
    | returned => cases hp
  · push Not at hpublish
    have hsame : (serveReplayBook now s c).1 = s := serveReplayBook_read hpublish
    have hread := replayStage_read hstart h hstage hpublish now
    rw [hsame]
    exact ⟨.refl s, h, hread⟩

end Stage

/-- What holds in every run in which no call publishes after another key has. -/
def replayOutline (env : Env) (jobId : String) (db₀ : Db) (keys : ℕ → Option String)
    (hstart : DeadArticle env jobId db₀) :
    ProofOutline (ι := ℕ) (α := Except ErrorText ReplayReply) serveReplayBook noNote where
  admits := ReplayRace.Timely
  shared := EpisodeInv env jobId db₀
  at_ i s _ p := ∃ key, keys i = some key ∧ ReplayStage env jobId db₀ s key p
  own w i now c k hcall hadmits hinv hstage := by
    obtain ⟨key, hkey, hstage⟩ := hstage
    have htimely : c.Timely w.pool.shared.db := by
      simp only [ReplayRace.Timely, hcall] at hadmits
      exact hadmits
    obtain ⟨-, hinv', hstage'⟩ := replayStage_step hstart hinv hstage htimely now
    exact ⟨hinv', key, hkey, hstage'⟩
  others w i now c k j p hcall _ hadmits hinv hstage _ hother := by
    obtain ⟨key, hkey, hstage⟩ := hstage
    obtain ⟨other, hother, hstage'⟩ := hother
    have htimely : c.Timely w.pool.shared.db := by
      simp only [ReplayRace.Timely, hcall] at hadmits
      exact hadmits
    obtain ⟨hgrows, -, -⟩ := replayStage_step hstart hinv hstage htimely now
    exact ⟨other, hother, hstage'.later hgrows⟩

/-! ## One message -/

theorem EpisodeInv.length_le {env : Env} {jobId : String} {db₀ : Db} {s : ReplayBook}
    (h : EpisodeInv env jobId db₀ s) : s.inserted.length ≤ 1 := by
  cases h.phase with
  | dead operations job envelope inbox inserted => simp [inserted]
  | opened fresh operations job envelope inserted => simp [inserted]

/--
**The replays of a dead article job insert one message, as long as no call publishes after another
key has**, for any number of calls under any keys in any interleaving.
-/
theorem one_replay (env : Env) (jobId : String) (db : Db) (keys : ℕ → Option String)
    (steps : List (ℕ × Instant)) (hstart : DeadArticle env jobId db)
    (htimely : replayRaceMachine.Admits ReplayRace.Timely
      (ReplayRace.start env jobId db keys) steps) :
    OneReplay jobId db keys
      (replayRaceMachine.run (ReplayRace.start env jobId db keys) steps) := by
  have hholds₀ : (replayOutline env jobId db keys hstart).Holds
      (ReplayRace.start env jobId db keys) := by
    obtain ⟨row, hrow, hdead⟩ := hstart.dead
    refine ⟨⟨rfl, rfl, .dead rfl ?_ rfl rfl rfl⟩, fun i p hp => ?_⟩
    · show (db.jobs.lookup JobRow.jobId jobId).map JobRow.status = some .dead
      rw [hrow, Option.map_some, hdead]
    · obtain ⟨key, hkey, rfl⟩ := Option.map_eq_some_iff.mp hp
      exact ⟨key, hkey, .start⟩
  have hholds := ProofOutline.run hholds₀ htimely
  have hanswered : ∀ i key reply, keys i = some key →
      (replayRaceMachine.run (ReplayRace.start env jobId db keys) steps).result i = some reply →
      Answered jobId db (replayRaceMachine.run (ReplayRace.start env jobId db keys)
        steps).pool.shared key reply := by
    intro i key reply hkey hresult
    obtain ⟨key', hkey', hstage⟩ := hholds.2 i _ (Watched.result_eq_some.mp hresult)
    cases hkey.symm.trans hkey'
    generalize hp : Prog.ret reply = p at hstage
    cases hstage with
    | returned answered =>
      cases hp
      exact answered
    | start | effects | operation | letter | envelope | stamping | staging | publishing
    | concurrent => cases hp
  refine ⟨hholds.1.length_le, fun i key reply hkey hfresh hresult => ?_, ?_⟩
  · have hne := (hanswered i key reply hkey hresult).1 hfresh
    exact le_antisymm hholds.1.length_le (List.length_pos_iff.mpr hne)
  · intro i key reply hkey hresult
    exact (hanswered i key reply hkey hresult).2

/-! ## Two keys that overlap -/

/-- An article that was claimed and has died. -/
def deadDb : Db :=
  (jobMachine Sample.env .d1).run ∅
    [(0, .claim Sample.iv (Sample.articleJob Sample.firstId).toJson),
      (1000, .finish Sample.firstId (.failed (some .permanent) none none))]

/-- The sample has a dead article. -/
theorem deadArticle_deadDb : DeadArticle Sample.env Sample.firstId deadDb := by
  obtain ⟨hdead, heffects, hletter, henvelope, hoperations, hinbox⟩ :
      (deadDb.jobs.lookup JobRow.jobId Sample.firstId).map JobRow.status = some .dead ∧
      terminalEffect Sample.firstId deadDb.effects = none ∧
      (deadDb.deadLetters.lookup DeadLetterRow.jobId Sample.firstId).map
        DeadLetterRow.envelopeJobId = some (some Sample.firstId) ∧
      envelopeJob Sample.env Sample.firstId
        (deadDb.envelopes.lookup EnvelopeRow.jobId Sample.firstId) =
          .ok (Sample.articleJob Sample.firstId) ∧
      deadDb.replayOperations = ∅ ∧ deadDb.inbox = ∅ := by decide +kernel
  refine ⟨by decide, Option.map_eq_some_iff.mp hdead, heffects, Option.map_eq_some_iff.mp hletter,
    ⟨_, henvelope⟩, fun operation h => ?_, fun message h => ?_⟩
  · rw [hoperations] at h
    exact absurd h Table.not_mem_empty
  · rw [hinbox] at h
    exact absurd h Table.not_mem_empty

/-- Two operators, each with a key. -/
def twoKeys : ℕ → Option String
  | 0 => some "replay-1"
  | 1 => some "replay-2"
  | _ => none

/-- The second replay comes after the first. -/
def replaysInTurn : List (ℕ × Instant) :=
  List.replicate 8 (0, 2000) ++ List.replicate 5 (1, 3000)

/-- Both replays read before either writes. -/
def replaysOverlapping : List (ℕ × Instant) :=
  List.replicate 7 (0, 2000) ++ List.replicate 7 (1, 2000) ++ [(0, 2001), (1, 2001)]

theorem one_replay_inTurn :
    OneReplay Sample.firstId deadDb twoKeys
      (replayRaceMachine.run (ReplayRace.start Sample.env Sample.firstId deadDb twoKeys)
        replaysInTurn) :=
  one_replay Sample.env Sample.firstId deadDb twoKeys replaysInTurn deadArticle_deadDb
    (by decide +kernel)

theorem two_replays :
    ¬ OneReplay Sample.firstId deadDb twoKeys
      (replayRaceMachine.run (ReplayRace.start Sample.env Sample.firstId deadDb twoKeys)
        replaysOverlapping) := by
  intro h
  exact absurd h.atMost (by decide +kernel)

end InboxServer.D1
