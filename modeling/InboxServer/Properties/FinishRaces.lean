import InboxServer.Infra.Interleave
import InboxServer.Properties.Jobs
import InboxServer.Properties.Sample
import InboxServer.Properties.SyncRuns

/-!
# Finishes that race on D1

Any number of calls of `finishJob` interleave, statement by statement. A call looks at the status of
its job once; the batch that it writes later checks nothing.

* `follows_finishJob` — what a call has read when it writes, and what it then answers
* `terminal_kept` — as long as no call writes to a job that has ended, the end stays
* `inTime_of_apart` — no call does as long as none ends the job between the read and the write of
  another one
* `ended_twice` — two results that overlap: a job that is done dies
-/

namespace InboxServer.D1

open Infra

/-! ## What a call reads and writes -/

/-- The row of a job id. -/
def jobRow (jobId : String) (db : Db) : Option JobRow := db.jobs.lookup JobRow.jobId jobId

/-- The rows that a call has read, and what it has written. -/
structure FinishRead where
  job : Option JobRow
  sync : Option SyncJobRow
  wrote : Option (List Write)

def FinishRead.blank : FinishRead := ⟨none, none, none⟩

def FinishRead.next (read : FinishRead) : (c : Step) → c.Answer → FinishRead
  | .selectJobById _, row => { read with job := row }
  | .selectSyncJob _, row => { read with sync := row }
  | .batch writes, done => { read with wrote := if done then some writes else read.wrote }
  | _, _ => read

/-- The write of a report to the sync run of a job, with the run as it was read. -/
def syncWrites (row : JobRow) (sync : Option SyncJobRow) (report : SyncJobUpdate) : List Write :=
  match collectRun row with
  | none => []
  | some (source, runId) =>
    match sync with
    | none => []
    | some syncJob => [.updateSyncJob (advanceSyncJob syncJob.stats { report with source }) runId]

/-- The batch of a call with a result, and whether the job is to be tried again after it. -/
inductive FinishWrites (jobId : String) (read : FinishRead) :
    JobResult → Bool → List Write → Prop
  | deferred {reason : DeferReason} {retryAt : DateText} {timestamp : Instant} :
      FinishWrites jobId read (.deferred reason retryAt) true
        [.deferJob retryAt reason timestamp jobId]
  | uncertain {reason : String} {timestamp : Instant} :
      FinishWrites jobId read (.uncertain reason) false
        [.setJobUncertain (slice500 reason) timestamp jobId,
          .setEnvelopeStatus .uncertain timestamp jobId]
  | done {summary : Option Fields} {timestamp : Instant} {row : JobRow}
      (job : read.job = some row) :
      FinishWrites jobId read (.done summary) false
        (.setJobDone (summary.getD []) timestamp jobId :: .deleteEnvelope jobId ::
          syncWrites row read.sync (doneReport summary timestamp))
  | failed {errorClass : Option JobErrorClass} {errorMessage payloadDigest : Option String}
      {failureAttempts : Nat} {timestamp : Instant} :
      FinishWrites jobId read (.failed errorClass errorMessage payloadDigest) true
        [.setJobFailed failureAttempts (errorClass.getD .permanent) (errorMessageOf errorMessage)
          timestamp jobId]
  | died {errorClass : Option JobErrorClass} {errorMessage payloadDigest : Option String}
      {failureAttempts : Nat} {timestamp : Instant} {row : JobRow} {letter : DeadLetterRow}
      (job : read.job = some row) :
      FinishWrites jobId read (.failed errorClass errorMessage payloadDigest) false
        (.setJobDead failureAttempts (errorClass.getD .permanent) (errorMessageOf errorMessage)
            timestamp jobId :: .upsertDeadLetter letter ::
          .setEnvelopeStatus .dead timestamp jobId ::
          syncWrites row read.sync (deadReport (errorMessageOf errorMessage) timestamp))

/-- A call writes once, for a job that it has found alive. -/
def FinishPermits (jobId : String) (result : JobResult) (read : FinishRead) : Step → Prop
  | .selectJobById id => id = jobId ∧ read.wrote = none
  | .selectSyncJob _ => read.wrote = none
  | .batch writes =>
    (∃ row, read.job = some row ∧ row.status.isTerminal = false) ∧ read.wrote = none ∧
      ∃ retries, FinishWrites jobId read result retries writes
  | _ => True

def finishProtocol (jobId : String) (result : JobResult) :
    Protocol Step Step.Answer FinishRead where
  pre := FinishPermits jobId result
  rely _ _ := True
  post := FinishRead.next

/-- What a call answers, by what it has read and written. -/
def FinishAnswers (jobId : String) (result : JobResult) (read : FinishRead) :
    Except ErrorText Settlement → Prop
  | .ok .ack =>
    (read.wrote = none ∧ ∃ row, read.job = some row ∧ row.status.isTerminal = true) ∨
      ∃ writes, read.wrote = some writes ∧ FinishWrites jobId read result false writes
  | .ok (.retry _) =>
    ∃ writes, read.wrote = some writes ∧ FinishWrites jobId read result true writes
  | .error _ => True

section Follows

variable {jobId : String} {result : JobResult} {read : FinishRead}

/-- What was written stays written: the reads that it rests on do not change any more. -/
theorem FinishWrites.of_wrote {retries : Bool} {writes : List Write}
    (h : FinishWrites jobId read result retries writes) (wrote : Option (List Write)) :
    FinishWrites jobId { read with wrote } result retries writes := by
  cases h with
  | deferred => exact .deferred
  | uncertain => exact .uncertain
  | done job => exact .done job
  | failed => exact .failed
  | died job => exact .died job

/-- A call that commits its batch answers as the batch leaves the row. -/
theorem follows_commit {writes : List Write} {reply : Settlement} {retries : Bool} {row : JobRow}
    (hjob : read.job = some row) (hlive : row.status.isTerminal = false)
    (hwrote : read.wrote = none) (hwrites : FinishWrites jobId read result retries writes)
    (hreply : FinishAnswers jobId result { read with wrote := some writes } (.ok reply)) :
    Prog.Follows (finishProtocol jobId result) (FinishAnswers jobId result) read
      (Call.commit writes reply) := by
  refine ⟨⟨⟨row, hjob, hlive⟩, hwrote, retries, hwrites⟩, fun done _ => ?_⟩
  cases done with
  | false => exact trivial
  | true => exact hreply

/-- The report to the sync run, and what follows it. -/
theorem follows_prepareSyncJobCompletion {row : JobRow} {report : SyncJobUpdate}
    {k : List Write → Call Settlement} (hwrote : read.wrote = none) (hsync : read.sync = none)
    (hk : ∀ sync, Prog.Follows (finishProtocol jobId result) (FinishAnswers jobId result)
      { read with sync } (k (syncWrites row sync report))) :
    Prog.Follows (finishProtocol jobId result) (FinishAnswers jobId result) read
      (prepareSyncJobCompletion row report k) := by
  unfold prepareSyncJobCompletion
  have hnone := hk none
  simp only [syncWrites] at hk hnone
  split
  · next hrun =>
    rw [hrun] at hnone
    rw [← hsync] at hnone
    exact hnone
  · next source runId hrun =>
    rw [hrun] at hnone
    refine ⟨hwrote, fun sync _ => ?_⟩
    have hread := hk sync
    rw [hrun] at hread
    cases sync with
    | none => exact hread
    | some syncJob => exact hread

/-- **What `finishJob` does, step by step.** -/
theorem follows_finishJob (jobId : String) (result : JobResult) :
    Prog.Follows (finishProtocol jobId result) (FinishAnswers jobId result) .blank
      (finishJob jobId result) := by
  refine ⟨⟨rfl, rfl⟩, fun found _ => ?_⟩
  cases found with
  | none => exact trivial
  | some row =>
    dsimp only
    split
    · next hterminal => exact Or.inl ⟨rfl, row, rfl, hterminal⟩
    · next hlive =>
      rw [Bool.not_eq_true] at hlive
      refine ⟨trivial, fun timestamp _ => ?_⟩
      cases result with
      | deferred reason retryAt =>
        refine ⟨⟨⟨row, rfl, hlive⟩, rfl, true, .deferred⟩, fun done _ => ?_⟩
        cases done with
        | false => exact trivial
        | true => exact ⟨trivial, fun current _ => ⟨_, rfl, .deferred⟩⟩
      | uncertain reason =>
        exact follows_commit rfl hlive rfl .uncertain (Or.inr ⟨_, rfl, .uncertain⟩)
      | done summary =>
        refine follows_prepareSyncJobCompletion rfl rfl fun sync => ?_
        exact follows_commit rfl hlive rfl (.done rfl) (Or.inr ⟨_, rfl, .done rfl⟩)
      | failed errorClass errorMessage payloadDigest =>
        dsimp only
        split
        · exact follows_commit rfl hlive rfl .failed ⟨_, rfl, .failed⟩
        · refine ⟨trivial, fun envelope _ => ?_⟩
          dsimp only
          split
          · exact trivial
          · refine follows_prepareSyncJobCompletion rfl rfl fun sync => ?_
            exact follows_commit rfl hlive rfl (.died rfl) (Or.inr ⟨_, rfl, .died rfl⟩)

end Follows

/-! ## What a batch does -/

/-- The sync runs after the report of a job, made from the run as it was read. -/
def reported (row : JobRow) (sync : Option SyncJobRow) (report : SyncJobUpdate)
    (syncJobs : Table SyncJobRow) : Table SyncJobRow :=
  match collectRun row with
  | none => syncJobs
  | some (source, runId) =>
    match sync with
    | none => syncJobs
    | some syncJob =>
      syncJobs.update (fun r => r.id = runId)
        (SyncJobRow.setProgress (advanceSyncJob syncJob.stats { report with source }))

/-- The writes to the sync run are those of its report. -/
theorem syncWrites_apply (row : JobRow) (sync : Option SyncJobRow) (report : SyncJobUpdate)
    (db : Db) : (syncWrites row sync report).foldlM Write.apply db =
      some { db with syncJobs := reported row sync report db.syncJobs } := by
  unfold syncWrites reported
  cases collectRun row with
  | none => rfl
  | some run =>
    cases sync with
    | none => rfl
    | some syncJob => rfl

/-- The database after the batch of a call. -/
structure Finishes (jobId : String) (read : FinishRead) (result : JobResult) (retries : Bool)
    (db db' : Db) : Prop where
  jobs : ∃ f : JobRow → JobRow,
    (∀ row, (f row).status.isTerminal = !retries ∧ collectRun (f row) = collectRun row) ∧
    ∀ id, jobRow id db' = (jobRow id db).map fun row => if id = jobId then f row else row
  quiet : retries = true → db'.syncJobs = db.syncJobs
  reports : retries = false → (reportAt 0 result).isSome → ∀ row, read.job = some row →
    ∃ timestamp report, reportAt timestamp result = some report ∧
      db'.syncJobs = reported row read.sync report db.syncJobs

section Apply

variable {jobId : String} {result : JobResult} {read : FinishRead}

/-- An update of a job leaves the other ones. -/
theorem jobRow_update {db : Db} (f : JobRow → JobRow) [Table.AddsNoConflict f]
    (hkeeps : ∀ row, (f row).jobId = row.jobId) (jobId id : String) :
    (db.jobs.update (fun r => r.jobId = jobId) f).lookup JobRow.jobId id =
      (jobRow id db).map fun row => if id = jobId then f row else row := by
  rw [Table.lookup_update_key hkeeps]
  show _ = (db.jobs.lookup JobRow.jobId id).map _
  by_cases h : id = jobId
  · subst h
    simp
  · have hne : ¬ jobId = id := fun h' => h h'.symm
    rw [if_neg hne]
    simp [h]

/-- The batch of a finish succeeds, and finishes the job. -/
theorem FinishWrites.apply {retries : Bool} {writes : List Write}
    (h : FinishWrites jobId read result retries writes) (db : Db) :
    ∃ db', writes.foldlM Write.apply db = some db' ∧
      Finishes jobId read result retries db db' := by
  cases h with
  | @deferred reason retryAt timestamp =>
    refine ⟨_, rfl, ⟨JobRow.defer retryAt reason timestamp, fun row => ⟨rfl, rfl⟩, fun id => ?_⟩,
      fun _ => rfl, fun hretries => by cases hretries⟩
    exact jobRow_update (JobRow.defer retryAt reason timestamp) (fun _ => rfl) jobId id
  | @uncertain reason timestamp =>
    refine ⟨_, rfl, ⟨JobRow.setUncertain (slice500 reason) timestamp, fun row => ⟨rfl, rfl⟩,
      fun id => ?_⟩, (fun hretries => by cases hretries), fun _ hreport => by cases hreport⟩
    exact jobRow_update (JobRow.setUncertain (slice500 reason) timestamp) (fun _ => rfl) jobId id
  | @done summary timestamp row job =>
    refine ⟨_, syncWrites_apply row read.sync _ _, ⟨JobRow.setDone (summary.getD []) timestamp,
      fun row => ⟨rfl, rfl⟩, fun id => ?_⟩, (fun hretries => by cases hretries),
      fun _ _ row' hjob => ?_⟩
    · exact jobRow_update (JobRow.setDone (summary.getD []) timestamp) (fun _ => rfl) jobId id
    · obtain rfl : row = row' := Option.some.inj (job.symm.trans hjob)
      exact ⟨timestamp, _, rfl, rfl⟩
  | @failed errorClass errorMessage payloadDigest failureAttempts timestamp =>
    refine ⟨_, rfl, ⟨JobRow.setFailed failureAttempts (errorClass.getD .permanent)
      (errorMessageOf errorMessage) timestamp, fun row => ⟨rfl, rfl⟩, fun id => ?_⟩,
      fun _ => rfl, fun hretries => by cases hretries⟩
    exact jobRow_update (JobRow.setFailed failureAttempts (errorClass.getD .permanent)
      (errorMessageOf errorMessage) timestamp) (fun _ => rfl) jobId id
  | @died errorClass errorMessage payloadDigest failureAttempts timestamp row letter job =>
    refine ⟨_, syncWrites_apply row read.sync _ _, ⟨JobRow.setDead failureAttempts
      (errorClass.getD .permanent) (errorMessageOf errorMessage) timestamp, fun row => ⟨rfl, rfl⟩,
      fun id => ?_⟩, (fun hretries => by cases hretries), fun _ _ row' hjob => ?_⟩
    · exact jobRow_update (JobRow.setDead failureAttempts (errorClass.getD .permanent)
        (errorMessageOf errorMessage) timestamp) (fun _ => rfl) jobId id
    · obtain rfl : row = row' := Option.some.inj (job.symm.trans hjob)
      exact ⟨timestamp, _, rfl, rfl⟩

end Apply

/-! ## Calls that interleave -/

/-- What a call has read and written, and how its write has left its job. -/
abbrev FinishNote := FinishRead × Option JobRow

def finishNote : Watched.Note Db Step Step.Answer FinishNote
  | (read, _), _, .batch writes, done, after =>
    (read.next (.batch writes) done, read.job.bind fun row => jobRow row.jobId after)
  | (read, left), _, c, answer, _ => (read.next c answer, left)

/-- Calls of `finishJob`, each at its own place. -/
abbrev FinishRace (ι : Type) :=
  Watched ι Db Step Step.Answer (Except ErrorText Settlement) FinishNote

section Calls

variable {ι : Type}

/-- The calls before their first steps. -/
def FinishRace.start (db : Db) (calls : ι → Option (String × JobResult)) : FinishRace ι where
  pool :=
    { shared := db
      procs := fun i => (calls i).map fun call => finishJob call.1 call.2 }
  notes _ := (.blank, none)

/-- Where the call at a place stands. -/
def FinishesAt (calls : ι → Option (String × JobResult)) (i : ι) (note : FinishNote)
    (p : Call Settlement) : Prop :=
  ∃ jobId result, calls i = some (jobId, result) ∧
    Prog.Follows (finishProtocol jobId result) (FinishAnswers jobId result) note.1 p

section Stage

variable {calls : ι → Option (String × JobResult)} {i : ι} {note : FinishNote}

theorem finishesAt_start {db : Db} {p : Call Settlement}
    (h : (FinishRace.start db calls).pool.procs i = some p) :
    FinishesAt calls i (.blank, none) p := by
  obtain ⟨⟨jobId, result⟩, hcall, rfl⟩ := Option.map_eq_some_iff.mp h
  exact ⟨jobId, result, hcall, follows_finishJob jobId result⟩

theorem finishNote_fst (note : FinishNote) (db db' : Db) (c : Step) (answer : c.Answer) :
    (finishNote note db c answer db').1 = note.1.next c answer := by
  cases c <;> rfl

theorem finishesAt_step {c : Step} {k : c.Answer → Call Settlement}
    (h : FinishesAt calls i note (.call c k)) (db db' : Db) (answer : c.Answer) :
    FinishesAt calls i (finishNote note db c answer db') (k answer) := by
  obtain ⟨jobId, result, hcall, -, hnext⟩ := h
  refine ⟨jobId, result, hcall, ?_⟩
  rw [finishNote_fst]
  exact hnext answer trivial

/-- A step other than a batch reads. -/
theorem serve_read {now : Instant} {db : Db} {c : Step} (h : ∀ writes, c ≠ .batch writes) :
    (serve now db c).1 = db := by
  cases c with
  | batch writes => exact absurd rfl (h writes)
  | now | selectJob | selectJobById | selectEnvelope | selectEffect | selectSyncJob => rfl

/-- The batch of a call, and the database after it. -/
theorem finishesAt_batch {writes : List Write} {k : Bool → Call Settlement}
    (h : FinishesAt calls i note (.call (.batch writes) k)) (now : Instant) (db : Db) :
    ∃ jobId result retries, calls i = some (jobId, result) ∧ (serve now db (.batch writes)).2 = true ∧
      (∃ row, note.1.job = some row ∧ row.status.isTerminal = false) ∧ note.1.wrote = none ∧
      FinishWrites jobId note.1 result retries writes ∧
      Finishes jobId note.1 result retries db (serve now db (.batch writes)).1 := by
  obtain ⟨jobId, result, hcall, ⟨hlive, hwrote, retries, hwrites⟩, -⟩ := h
  obtain ⟨db', happly, hfinishes⟩ := hwrites.apply db
  have hserve : serve now db (.batch writes) = (db', true) := by
    simp only [serve, happly]
  rw [hserve]
  exact ⟨jobId, result, retries, hcall, rfl, hlive, hwrote, hwrites, hfinishes⟩

end Stage

variable [DecidableEq ι]

abbrev finishMachine : Machine (FinishRace ι) (ι × Instant) Unit := Watched.machine serve finishNote

/-! ## Jobs that have ended -/

/-- The status of a job has ended. -/
def Ended (status : Option JobStatus) : Prop := ∃ s, status = some s ∧ s.isTerminal = true

def jobStatus (jobId : String) (w : FinishRace ι) : Option JobStatus :=
  (jobRow jobId w.pool.shared).map JobRow.status

/--
The end of a job stays; a call answers `retry` only if it has left the job alive, and `ack` only if
the job has ended.
-/
structure TerminalKept (jobId : String) (w : FinishRace ι) (steps : List (ι × Instant)) : Prop where
  latched : finishMachine.Latches (jobStatus jobId) Ended w steps
  retry : ∀ i delay, (finishMachine.run w steps).result i = some (.ok (.retry delay)) →
    ∃ row, ((finishMachine.run w steps).notes i).2 = some row ∧ row.status.isTerminal = false
  ack : ∀ i, (finishMachine.run w steps).result i = some (.ok .ack) →
    Ended (jobStatus jobId (finishMachine.run w steps))

/-- The next step of a call is no batch on a job that has ended. -/
def FinishRace.InTime (jobId : String) (w : FinishRace ι) (s : ι × Instant) : Prop :=
  match w.pool.procs s.1 with
  | some (.call (.batch _) _) => ∀ row ∈ jobRow jobId w.pool.shared, row.status.isTerminal = false
  | some (.call ..) | some (.ret _) | none => True

instance (jobId : String) (w : FinishRace ι) (s : ι × Instant) : Decidable (w.InTime jobId s) := by
  unfold FinishRace.InTime
  split <;> infer_instance

/-- What a call knows of its job. -/
structure FinishKnows (jobId : String) (result : JobResult) (db : Db) (note : FinishNote) :
    Prop where
  found : ∀ row, note.1.job = some row → row.jobId = jobId ∧ (jobRow jobId db).isSome
  seen : ∀ row, note.1.job = some row → row.status.isTerminal = true →
    Ended ((jobRow jobId db).map JobRow.status)
  left : ∀ writes retries, note.1.wrote = some writes →
    FinishWrites jobId note.1 result retries writes →
    (∃ row, note.2 = some row ∧ row.status.isTerminal = !retries) ∧
      (retries = false → Ended ((jobRow jobId db).map JobRow.status))

section Knows

variable {jobId : String} {result : JobResult} {db db' : Db} {note : FinishNote} {now : Instant}

theorem Finishes.row {read : FinishRead} {retries : Bool}
    (h : Finishes jobId read result retries db db') {row : JobRow} (hrow : jobRow jobId db = some row) :
    ∃ row', jobRow jobId db' = some row' ∧ row'.status.isTerminal = !retries := by
  obtain ⟨f, hf, hjobs⟩ := h.jobs
  refine ⟨f row, ?_, (hf row).1⟩
  rw [hjobs, hrow, Option.map_some, if_pos rfl]

/-- What a call knows stays true while the row of the job is there and its end stays. -/
theorem FinishKnows.later (h : FinishKnows jobId result db note)
    (hfound : (jobRow jobId db).isSome → (jobRow jobId db').isSome)
    (hended : Ended ((jobRow jobId db).map JobRow.status) →
      Ended ((jobRow jobId db').map JobRow.status)) :
    FinishKnows jobId result db' note where
  found row hrow := ⟨(h.found row hrow).1, hfound (h.found row hrow).2⟩
  seen row hrow hterminal := hended (h.seen row hrow hterminal)
  left writes retries hwrote hwrites :=
    ⟨(h.left writes retries hwrote hwrites).1,
      fun hretries => hended ((h.left writes retries hwrote hwrites).2 hretries)⟩

/-- A call that writes knows how it has left the row. -/
theorem FinishKnows.write (h : FinishKnows jobId result db note) {writes : List Write}
    {row : JobRow} {retries : Bool} (hjob : note.1.job = some row)
    (hlive : row.status.isTerminal = false) (hwrites : FinishWrites jobId note.1 result retries writes)
    (happly : writes.foldlM Write.apply db = some db') :
    FinishKnows jobId result db' (finishNote note db (.batch writes) true db') := by
  obtain ⟨hid, hsome⟩ := h.found row hjob
  obtain ⟨current, hcurrent⟩ := Option.isSome_iff_exists.mp hsome
  have hleft : (finishNote note db (.batch writes) true db').2 = jobRow jobId db' := by
    show (note.1.job.bind fun row => jobRow row.jobId db') = _
    rw [hjob, ← hid]
    rfl
  have hwritten : ∀ retries,
      FinishWrites jobId (note.1.next (.batch writes) true) result retries writes →
      ∃ row', jobRow jobId db' = some row' ∧ row'.status.isTerminal = !retries := by
    intro retries hwrites
    obtain ⟨db'', happly', hfinishes⟩ := hwrites.apply db
    rw [happly] at happly'
    cases happly'
    exact hfinishes.row hcurrent
  have hjob' : (finishNote note db (.batch writes) true db').1.job = some row := hjob
  constructor
  · intro row' hrow'
    obtain rfl : row = row' := Option.some.inj (hjob'.symm.trans hrow')
    obtain ⟨after, hafter, -⟩ := hwritten retries (hwrites.of_wrote (some writes))
    exact ⟨hid, by rw [hafter]; rfl⟩
  · intro row' hrow' hterminal
    obtain rfl : row = row' := Option.some.inj (hjob'.symm.trans hrow')
    rw [hlive] at hterminal
    cases hterminal
  · intro writes' retries' hwrote hwrites'
    obtain rfl : writes = writes' := Option.some.inj hwrote
    obtain ⟨after, hafter, hstatus⟩ := hwritten retries' hwrites'
    refine ⟨⟨after, hleft.trans hafter, hstatus⟩, fun hretries => ⟨after.status, ?_, ?_⟩⟩
    · rw [hafter]
      rfl
    · rw [hstatus, hretries]
      rfl

/-- What a call knows after a read. -/
theorem FinishKnows.read (h : FinishKnows jobId result db note) {c : Step}
    (hread : ∀ writes, c ≠ .batch writes) (hpermits : FinishPermits jobId result note.1 c) :
    FinishKnows jobId result db (finishNote note db c (serve now db c).2 db) := by
  cases c with
  | batch writes => exact absurd rfl (hread writes)
  | selectJobById id =>
    obtain ⟨rfl, hwrote⟩ := hpermits
    refine ⟨fun row hrow => ?_, fun row hrow hterminal => ?_, fun writes retries hwritten => ?_⟩
    · exact ⟨Table.lookup_key hrow, by rw [jobRow, show db.jobs.lookup _ id = some row from hrow]; rfl⟩
    · exact ⟨row.status, congrArg (Option.map JobRow.status) hrow, hterminal⟩
    · exact absurd (hwritten.symm.trans hwrote) (by simp)
  | selectSyncJob id =>
    refine ⟨h.found, h.seen, fun writes retries hwritten => ?_⟩
    exact absurd (hwritten.symm.trans hpermits) (by simp)
  | now | selectJob | selectEnvelope | selectEffect => exact ⟨h.found, h.seen, h.left⟩

end Knows

/-- Calls with these results, all for one job. -/
def callsOn (jobId : String) (results : ι → Option JobResult) (i : ι) :
    Option (String × JobResult) :=
  (results i).map fun result => (jobId, result)

omit [DecidableEq ι] in
theorem callsOn_eq_some {jobId : String} {results : ι → Option JobResult} {i : ι}
    {call : String × JobResult} (h : callsOn jobId results i = some call) :
    call.1 = jobId ∧ results i = some call.2 := by
  obtain ⟨result, hresult, rfl⟩ := Option.map_eq_some_iff.mp h
  exact ⟨rfl, hresult⟩

omit [DecidableEq ι] in
/-- A batch runs in time on a job that is alive. -/
theorem FinishRace.InTime.live {jobId : String} {w : FinishRace ι} {i : ι} {now : Instant}
    (h : w.InTime jobId (i, now)) {writes : List Write} {k : Bool → Call Settlement}
    (hcall : w.pool.procs i = some (.call (.batch writes) k)) :
    ¬ Ended ((jobRow jobId w.pool.shared).map JobRow.status) := by
  rintro ⟨status, hstatus, hterminal⟩
  obtain ⟨row, hrow, rfl⟩ := Option.map_eq_some_iff.mp hstatus
  simp only [FinishRace.InTime, hcall] at h
  rw [h row hrow] at hterminal
  cases hterminal

/-- What holds in every run in which no call writes to a job that has ended. -/
def terminalOutline (jobId : String) (results : ι → Option JobResult) :
    ProofOutline (ι := ι) (α := Except ErrorText Settlement) serve finishNote where
  admits := FinishRace.InTime jobId
  shared _ := True
  at_ i db note p :=
    FinishesAt (callsOn jobId results) i note p ∧
      ∀ result, results i = some result → FinishKnows jobId result db note
  own w i now c k hcall hadmits _ hstage := by
    refine ⟨trivial, finishesAt_step hstage.1 _ _ _, fun result hresult => ?_⟩
    have hknows := hstage.2 result hresult
    obtain ⟨id, result', hcalls, ⟨hpermits, -⟩⟩ := hstage.1
    obtain ⟨hid, hresult'⟩ := callsOn_eq_some hcalls
    cases hid
    cases hresult.symm.trans hresult'
    by_cases hbatch : ∃ writes, c = .batch writes
    · obtain ⟨writes, rfl⟩ := hbatch
      obtain ⟨⟨row, hjob, hlive⟩, -, retries, hwrites⟩ := hpermits
      obtain ⟨db', happly, -⟩ := hwrites.apply w.pool.shared
      have hserve : serve now w.pool.shared (.batch writes) = (db', true) := by
        simp only [serve, happly]
      rw [hserve]
      exact hknows.write hjob hlive hwrites happly
    · push Not at hbatch
      have hsame : (serve now w.pool.shared c).1 = w.pool.shared := serve_read hbatch
      rw [hsame]
      exact hknows.read hbatch hpermits
  others w i now c k j p hcall _ hadmits _ hstage hne hother := by
    refine ⟨hother.1, fun result hresult => ?_⟩
    have hknows := hother.2 result hresult
    by_cases hbatch : ∃ writes, c = .batch writes
    · obtain ⟨writes, rfl⟩ := hbatch
      obtain ⟨id, result', retries, hcalls, -, -, -, -, hfinishes⟩ :=
        finishesAt_batch hstage.1 now w.pool.shared
      obtain ⟨f, -, hjobs⟩ := hfinishes.jobs
      refine hknows.later (fun hfound => ?_) fun hended => absurd hended (hadmits.live hcall)
      rw [hjobs, Option.isSome_map]
      exact hfound
    · push Not at hbatch
      rw [serve_read hbatch]
      exact hknows

/-! ### Ends that come between a read and a write -/

/-- A call has found the job alive, and is yet to write. -/
def FinishRace.Pending (w : FinishRace ι) (i : ι) : Prop :=
  (∃ c k, w.pool.procs i = some (.call c k)) ∧ (w.notes i).1.wrote = none ∧
    ∃ row, (w.notes i).1.job = some row ∧ row.status.isTerminal = false

/-- The next step does not end the job between the read and the write of another call. -/
def FinishRace.Apart (jobId : String) (w : FinishRace ι) (s : ι × Instant) : Prop :=
  Ended (jobStatus jobId (finishMachine.next w s)) → ¬ Ended (jobStatus jobId w) →
    ∀ j, j ≠ s.1 → ¬ w.Pending j

/-- Of a job that has ended, a call that is yet to write has read that it has. -/
def SeesEnd (jobId : String) (db : Db) (note : FinishNote) (p : Call Settlement) : Prop :=
  Ended ((jobRow jobId db).map JobRow.status) → (∃ c k, p = .call c k) → note.1.wrote = none →
    ∀ row, note.1.job = some row → row.status.isTerminal = true

omit [DecidableEq ι] in
/-- A call that is about to write has found the job alive, so the job has not ended. -/
theorem SeesEnd.live {jobId : String} {results : ι → Option JobResult} {i : ι} {note : FinishNote}
    {db : Db} {writes : List Write} {k : Bool → Call Settlement}
    (h : SeesEnd jobId db note (.call (.batch writes) k))
    (hstage : FinishesAt (callsOn jobId results) i note (.call (.batch writes) k)) :
    ¬ Ended ((jobRow jobId db).map JobRow.status) := by
  intro hended
  obtain ⟨id, result, -, ⟨⟨row, hjob, hlive⟩, hwrote, -⟩, -⟩ := hstage
  rw [h hended ⟨_, _, rfl⟩ hwrote row hjob] at hlive
  cases hlive

omit [DecidableEq ι] in
/-- A read of the job sees its end, and another read changes nothing. -/
theorem SeesEnd.read {jobId : String} {results : ι → Option JobResult} {i : ι} {note : FinishNote}
    {db : Db} {c : Step} {k : c.Answer → Call Settlement} (h : SeesEnd jobId db note (.call c k))
    (hstage : FinishesAt (callsOn jobId results) i note (.call c k))
    (hread : ∀ writes, c ≠ .batch writes) (now : Instant) :
    SeesEnd jobId db (finishNote note db c (serve now db c).2 db) (k (serve now db c).2) := by
  intro hended _ hwrote row hjob
  cases c with
  | batch writes => exact absurd rfl (hread writes)
  | selectJobById id =>
    obtain ⟨_, result, hcalls, ⟨rfl, -⟩, -⟩ := hstage
    obtain ⟨hid, -⟩ := callsOn_eq_some hcalls
    obtain ⟨status, hstatus, hterminal⟩ := hended
    have hrow : jobRow jobId db = some row := by
      rw [← hid]
      exact hjob
    rw [hrow] at hstatus
    cases hstatus
    exact hterminal
  | now | selectJob | selectEnvelope | selectEffect | selectSyncJob =>
    exact h hended ⟨_, _, rfl⟩ hwrote row hjob

/-- What holds in every run in which no end comes between a read and a write. -/
def apartOutline (jobId : String) (results : ι → Option JobResult) :
    ProofOutline (ι := ι) (α := Except ErrorText Settlement) serve finishNote where
  admits := FinishRace.Apart jobId
  shared _ := True
  at_ i db note p := FinishesAt (callsOn jobId results) i note p ∧ SeesEnd jobId db note p
  own w i now c k hcall _ _ hstage := by
    refine ⟨trivial, finishesAt_step hstage.1 _ _ _, ?_⟩
    by_cases hbatch : ∃ writes, c = .batch writes
    · obtain ⟨writes, rfl⟩ := hbatch
      obtain ⟨_, _, _, -, hdone, -⟩ := finishesAt_batch hstage.1 now w.pool.shared
      rw [hdone]
      intro _ _ hwrote
      cases hwrote
    · push Not at hbatch
      rw [serve_read hbatch]
      exact hstage.2.read hstage.1 hbatch now
  others w i now c k j p hcall hp hapart _ hstage hne hother := by
    refine ⟨hother.1, fun hended hrunning hwrote row hjob => ?_⟩
    by_cases hbefore : Ended ((jobRow jobId w.pool.shared).map JobRow.status)
    · exact hother.2 hbefore hrunning hwrote row hjob
    · -- this step ends the job, so the other call is not between its read and its write
      have hafter : Ended (jobStatus jobId (finishMachine.next w (i, now))) := by
        rw [jobStatus, show (finishMachine.next w (i, now)).pool.shared =
          (serve now w.pool.shared c).1 from Watched.step_shared hcall now]
        exact hended
      obtain ⟨c', k', rfl⟩ := hrunning
      by_contra hlive
      rw [Bool.not_eq_true] at hlive
      exact hapart hafter hbefore j hne ⟨⟨c', k', hp⟩, hwrote, row, hjob, hlive⟩

/--
**No call writes to a job that has ended, as long as no call ends it between the read and the write
of another one**: a call that reads the job later finds it ended, and writes nothing.
-/
theorem inTime_of_apart (db : Db) (jobId : String) (results : ι → Option JobResult)
    {steps : List (ι × Instant)}
    (hapart : finishMachine.Admits (FinishRace.Apart jobId)
      (FinishRace.start db (callsOn jobId results)) steps) :
    finishMachine.Admits (FinishRace.InTime jobId)
      (FinishRace.start db (callsOn jobId results)) steps := by
  have hstart : (apartOutline jobId results).Holds
      (FinishRace.start db (callsOn jobId results)) :=
    ⟨trivial, fun i p hp => ⟨finishesAt_start hp, fun _ _ _ row hrow => by cases hrow⟩⟩
  refine Machine.admits_of_forall fun pre s post hsteps => ?_
  rw [hsteps] at hapart
  have hholds := ProofOutline.run hstart hapart.left
  generalize finishMachine.run (FinishRace.start db (callsOn jobId results)) pre = w at hholds ⊢
  unfold FinishRace.InTime
  split
  · next writes k hcall =>
    obtain ⟨hstage, hsees⟩ := hholds.2 s.1 _ hcall
    intro row hrow
    rw [← Bool.not_eq_true]
    intro hterminal
    exact hsees.live hstage ⟨row.status, by rw [hrow]; rfl, hterminal⟩
  · trivial
  · trivial
  · trivial

/--
**The end of a job stays, as long as no call writes to a job that has ended**, for any calls on the
job in any interleaving, from any row.
-/
theorem terminal_kept (db : Db) (jobId : String) (results : ι → Option JobResult)
    (steps : List (ι × Instant))
    (hintime : finishMachine.Admits (FinishRace.InTime jobId)
      (FinishRace.start db (callsOn jobId results)) steps) :
    TerminalKept jobId (FinishRace.start db (callsOn jobId results)) steps := by
  have hstart : (terminalOutline jobId results).Holds
      (FinishRace.start db (callsOn jobId results)) := by
    refine ⟨trivial, fun i p hp => ⟨finishesAt_start hp, fun result _ => ⟨?_, ?_, ?_⟩⟩⟩
    · exact fun row hrow => by cases hrow
    · exact fun row hrow => by cases hrow
    · exact fun writes retries hwrote => by cases hwrote
  have hholds := ProofOutline.run hstart hintime
  constructor
  · rw [Machine.latches_iff]
    intro pre s post hsteps hended
    obtain ⟨i, now⟩ := s
    rw [hsteps] at hintime
    have hs := Machine.Admits.at hintime
    generalize finishMachine.run (FinishRace.start db (callsOn jobId results)) pre = w at hended hs ⊢
    by_cases hcall : ∃ c k, w.pool.procs i = some (.call c k)
    · obtain ⟨c, k, hcall⟩ := hcall
      have hshared : (finishMachine.next w (i, now)).pool.shared = (serve now w.pool.shared c).1 :=
        Watched.step_shared hcall now
      have hread : ∀ writes, c ≠ .batch writes := by
        rintro writes rfl
        exact hs.live hcall hended
      unfold jobStatus
      rw [hshared, serve_read hread]
    · push Not at hcall
      rw [show finishMachine.next w (i, now) = w from Watched.step_idle now hcall]
  · intro i delay hresult
    obtain ⟨hstage, hknows⟩ := hholds.2 i _ (Watched.result_eq_some.mp hresult)
    obtain ⟨id, result, hcall, writes, hwrote, hwrites⟩ := hstage
    obtain ⟨rfl, hmine⟩ := callsOn_eq_some hcall
    exact ((hknows result hmine).left writes true hwrote hwrites).1
  · intro i hresult
    obtain ⟨hstage, hknows⟩ := hholds.2 i _ (Watched.result_eq_some.mp hresult)
    obtain ⟨id, result, hcall, hanswer⟩ := hstage
    obtain ⟨rfl, hmine⟩ := callsOn_eq_some hcall
    rcases hanswer with ⟨-, row, hjob, hterminal⟩ | ⟨writes, hwrote, hwrites⟩
    · exact (hknows result hmine).seen row hjob hterminal
    · exact ((hknows result hmine).left writes false hwrote hwrites).2 rfl

end Calls

/-! ## Two results that overlap -/

/-- A job that has been claimed. -/
def claimedDb : Db :=
  (jobMachine Sample.env .d1).run ∅ [(0, .claim [] (Sample.textJob Sample.firstId).toJson)]

/-- One worker has done the job, another one gives it up. -/
def doneAndFailed : ℕ → Option JobResult
  | 0 => some (.done none)
  | 1 => some (.failed (some .permanent) none (some "digest"))
  | _ => none

/-- The second call comes after the first. -/
def finishInTurn : List (ℕ × Instant) := [(0, 1000), (0, 1000), (0, 1000), (1, 1001)]

/-- The second call reads before the first one writes. -/
def finishOverlapping : List (ℕ × Instant) :=
  [(0, 1000), (1, 1000), (0, 1000), (1, 1000), (0, 1000), (1, 1001), (1, 1001)]

theorem terminal_kept_inTurn :
    TerminalKept Sample.firstId
      (FinishRace.start claimedDb (callsOn Sample.firstId doneAndFailed)) finishInTurn :=
  terminal_kept claimedDb Sample.firstId doneAndFailed finishInTurn
    (by decide +kernel)

theorem ended_twice :
    ¬ TerminalKept Sample.firstId
      (FinishRace.start claimedDb (callsOn Sample.firstId doneAndFailed)) finishOverlapping := by
  intro h
  have hstays := h.latched (finishOverlapping.take 5) (finishOverlapping.drop 5) [] rfl
    ⟨.done, by decide +kernel, rfl⟩
  exact absurd hstays (by decide +kernel)

end InboxServer.D1
