import InboxServer.Api.LegacyMigration
import InboxServer.Infra.Throwing
import InboxServer.Properties.QueueBatches

/-!
# What imports of legacy snapshots leave

The marker of a job is written after the job is sent, and it is looked for before anything of the
snapshot is sent. So a job goes out once as long as no two pending entries have its id and whoever
has sent something goes on to write its markers.

* `imports_writes` — an import executes some of its statements, in order, and nothing else
* `imported_twice` — the same snapshot once more changes nothing but IVs
* `imports_publish_once` — rows of jobs and dead letters stay, and jobs are sent once
* `repeated_job_sent_twice` — a job that is pending twice is sent twice
-/

namespace InboxServer.LegacyImport

open Infra Infra.Upsert Infra.Throwing

/-! ## Worlds -/

theorem afterAll_append (w : World) (first second : List ImportEvent) :
    w.afterAll (first ++ second) = (w.afterAll first).afterAll second := List.foldl_append

theorem serves_append {w : World} {first second : List ImportEvent} :
    w.Serves (first ++ second) ↔ w.Serves first ∧ (w.afterAll first).Serves second := by
  induction first generalizing w with
  | nil => simp [World.Serves, World.afterAll]
  | cons e first ih =>
    rw [List.cons_append, World.Serves, World.Serves, ih, and_assoc]
    rfl

/-- A batch or a message that is not taken. -/
def Fails : ImportEvent → Prop
  | ⟨.batch _, .error _⟩ => True
  | ⟨.send _, .error _⟩ => True
  | _ => False

/-! ## Statements -/

/-- The batches are the statements, in their order. -/
theorem flatten_batchesOf {statements : List Statement} {fuel : Nat} (h : statements.length ≤ fuel) :
    (batchesOf statements fuel).flatten = statements := by
  induction fuel generalizing statements with
  | zero => rw [List.length_eq_zero_iff.mp (Nat.le_zero.mp h)]; rfl
  | succ fuel ih =>
    rw [batchesOf]
    by_cases hnil : statements = []
    · rw [if_pos hnil, hnil]
      rfl
    · have hpos := List.length_pos_iff.mpr hnil
      rw [if_neg hnil, List.flatten_cons, ih (by rw [List.length_drop]; omega), List.take_append_drop]

/-- What is done of statements that are sent in batches. -/
structure Writes (statements : List Statement) (w : World) (trace : List ImportEvent)
    (result : Except ErrorText Unit) (done : List Statement) : Prop where
  opens : done <+: statements
  after : w.afterAll trace = { w with database := execute done w.database }
  finished : result = .ok () → done = statements
  failed : ∀ e, result = .error e → ∃ event ∈ trace, Fails event

/-- A part of the batches is written: all of them, or up to the one that fails. -/
theorem sendBatches_writes {batches : List (List Statement)} {trace : List ImportEvent}
    {result : Except ErrorText Unit} (h : (sendBatches batches).Runs trace result) (w : World) :
    ∃ done, Writes batches.flatten w trace result done := by
  induction batches generalizing w trace with
  | nil =>
    obtain ⟨rfl, rfl⟩ := Prog.runs_ret.mp h
    exact ⟨[], ⟨List.nil_prefix, rfl, fun _ => rfl, nofun⟩⟩
  | cons batch batches ih =>
    obtain ⟨answer, rest, rfl, hrest⟩ := Prog.runs_call.mp h
    rcases answer with e | ⟨⟩
    · obtain ⟨rfl, rfl⟩ := Prog.runs_ret.mp hrest
      exact ⟨[], ⟨List.nil_prefix, rfl, nofun, fun _ _ => ⟨_, List.mem_cons_self, trivial⟩⟩⟩
    · obtain ⟨done, hwrites⟩ := ih hrest { w with database := execute batch w.database }
      refine ⟨batch ++ done, ⟨?_, ?_, fun hok => ?_, fun e he => ?_⟩⟩
      · exact (List.prefix_append_right_inj batch).mpr hwrites.opens
      · rw [execute_append]
        exact hwrites.after
      · rw [List.flatten_cons, hwrites.finished hok]
      · obtain ⟨event, hevent, hfails⟩ := hwrites.failed e he
        exact ⟨event, List.mem_cons_of_mem _ hevent, hfails⟩

theorem batchStatements_writes {statements : List Statement} {trace : List ImportEvent}
    {result : Except ErrorText Unit} (h : (batchStatements statements).Runs trace result) (w : World) :
    ∃ done, Writes statements w trace result done := by
  obtain ⟨done, hwrites⟩ := sendBatches_writes h w
  rw [flatten_batchesOf le_rfl] at hwrites
  exact ⟨done, hwrites⟩

/-! ## Markers -/

/-- There is no marker of the job. -/
def unmarked (database : Database) (job : QueueJob) : Bool :=
  (database (.workerState (markerKey job.jobId))).isNone

/-- What is found pending are the jobs without a mark, and nothing changes. -/
theorem findPending_runs {jobs : List QueueJob} {trace : List ImportEvent}
    {result : Except ErrorText (List QueueJob)} (h : (findPending jobs).Runs trace result) {w : World}
    (hserved : w.Serves trace) :
    w.afterAll trace = w ∧ ∀ pending, result = .ok pending → pending = jobs.filter (unmarked w.database) := by
  induction jobs generalizing trace result with
  | nil =>
    obtain ⟨rfl, rfl⟩ := Prog.runs_ret.mp h
    exact ⟨rfl, fun pending hpending => (Except.ok.inj hpending).symm⟩
  | cons job jobs ih =>
    obtain ⟨answer, rest, rfl, hrest⟩ := Prog.runs_call.mp h
    obtain ⟨hanswer, hserves⟩ := hserved
    rcases answer with e | existing
    · obtain ⟨rfl, rfl⟩ := Prog.runs_ret.mp hrest
      exact ⟨rfl, nofun⟩
    · have hexisting : existing = (w.database (.workerState (markerKey job.jobId))).isSome := hanswer
      rcases Prog.runs_andThen.mp hrest with ⟨first, second, pending, rfl, hfirst, hsecond⟩ | ⟨e, he, rfl⟩
      · obtain ⟨hworld, hpending⟩ := ih hfirst (serves_append.mp hserves).1
        obtain ⟨rfl, rfl⟩ := Prog.runs_ret.mp hsecond
        rw [List.append_nil]
        refine ⟨hworld, fun found hfound => ?_⟩
        rw [← Except.ok.inj hfound, hpending pending rfl, List.filter_cons, unmarked, ← Option.not_isSome,
          ← hexisting]
        rcases existing with _ | _ <;> rfl
      · exact ⟨(ih he hserves).1, nofun⟩

/-! ## The queue -/

/-- A call of the producer, as one of the import. -/
def ofSend : SendEvent → ImportEvent
  | ⟨c, answer⟩ => ⟨.send c, answer⟩

/-- Sends on the queue are calls of the import. -/
theorem onQueue_runs {p : Producing} {trace : List ImportEvent} {result : Except ErrorText Unit}
    (h : (onQueue p).Runs trace result) : ∃ sends, trace = sends.map ofSend ∧ p.Runs sends result := by
  induction p generalizing trace with
  | ret a =>
    obtain ⟨rfl, rfl⟩ := Prog.runs_ret.mp h
    exact ⟨[], rfl, .ret _⟩
  | call c k ih =>
    obtain ⟨answer, rest, rfl, hrest⟩ := Prog.runs_call.mp h
    obtain ⟨sends, rfl, hsends⟩ := ih answer hrest
    exact ⟨⟨c, answer⟩ :: sends, rfl, .call hsends⟩

theorem afterAll_sent (w : World) (batches : List (List QueueJob)) :
    w.afterAll ((batches.map sentOk).map ofSend) = { w with queue := w.queue ++ batches.flatten } := by
  induction batches generalizing w with
  | nil => simp [World.afterAll]
  | cons batch batches ih =>
    have hrest := ih { w with queue := w.queue ++ batch }
    rw [List.append_assoc] at hrest
    exact hrest

/-- What is put in the queue of the jobs that are sent. -/
structure Publishes (jobs : List QueueJob) (w : World) (trace : List ImportEvent)
    (result : Except ErrorText Unit) (sent : List QueueJob) : Prop where
  opens : sent <+: jobs
  after : w.afterAll trace = { w with queue := w.queue ++ sent }
  finished : result = .ok () → sent = jobs
  /-- Where something is sent there is a call that is taken, and one after it that is not if it fails. -/
  taken : sent ≠ [] → ∃ before c after, trace = before ++ ⟨.send c, .ok ()⟩ :: after ∧
    ∀ e, result = .error e → ∃ event ∈ after, Fails event

/-- A part of the jobs is sent: all of them, or up to the batch that fails. -/
theorem queueSendBatch_publishes {zod : Zod} {jobs : List QueueJob} (hjobs : ∀ job ∈ jobs, job.Valid zod)
    {trace : List ImportEvent} {result : Except ErrorText Unit}
    (h : (onQueue (queueSendBatch zod (jobs.map QueueJob.toJson))).Runs trace result) (w : World) :
    ∃ sent, Publishes jobs w trace result sent := by
  obtain ⟨sends, rfl, hsends⟩ := onQueue_runs h
  unfold queueSendBatch at hsends
  rcases hmessages : (jobs.map QueueJob.toJson).mapM (queueMessage zod) with e | messages
  · rw [hmessages] at hsends
    obtain ⟨rfl, rfl⟩ := Prog.runs_ret.mp hsends
    exact ⟨[], ⟨List.nil_prefix, by simp [World.afterAll], nofun, fun hne => absurd rfl hne⟩⟩
  · rw [hmessages] at hsends
    have hsame : messages = jobs := by
      have hparse := (mapM_queueMessage_ok hmessages).1
      have hself : (jobs.map QueueJob.toJson).mapM (parseQueueJob zod) = some jobs := by
        clear hmessages hsends hparse h
        induction jobs with
        | nil => rfl
        | cons job jobs ih =>
          obtain ⟨hjob, hrest⟩ := List.forall_mem_cons.mp hjobs
          rw [List.map_cons, List.mapM_cons, parseQueueJob_toJson hjob, ih hrest]
          rfl
      rw [hself] at hparse
      exact (Option.some.inj hparse).symm
    subst hsame
    have hloop : (sendMessages [] (totalWeight messageBytes []) messages).Runs sends result := hsends
    have hflatten : (pack messageBytes 100 256000 [] messages).flatten = messages :=
      flatten_pack [] messages
    rcases sendMessages_published hloop with ⟨rfl, rfl⟩ | ⟨batches, failed, rest, e, hpack, rfl, rfl⟩
    · refine ⟨messages, ⟨List.prefix_rfl, ?_, fun _ => rfl, fun hne => ?_⟩⟩
      · rw [afterAll_sent, hflatten]
      · rcases hpack : pack messageBytes 100 256000 [] messages with _ | ⟨batch, batches⟩
        · rw [hpack] at hflatten
          exact absurd hflatten.symm hne
        · exact ⟨[], ⟨batch⟩, _, rfl, nofun⟩
    · rw [hpack, List.flatten_append] at hflatten
      refine ⟨batches.flatten, ⟨⟨_, hflatten⟩, ?_, nofun, fun hne => ?_⟩⟩
      · rw [List.map_append, afterAll_append, afterAll_sent]
        rfl
      · rcases batches with _ | ⟨batch, batches⟩
        · exact absurd rfl hne
        · refine ⟨[], ⟨batch⟩, _, rfl, fun _ _ => ⟨ofSend ⟨⟨failed⟩, .error e⟩, ?_, trivial⟩⟩
          simp

/-! ## Publishing -/

/-- What a call of `publishPendingOnce` does. -/
structure Published (jobs : List QueueJob) (updatedAt : String) (w : World) (trace : List ImportEvent)
    (result : Except ErrorText Nat) (sent : List QueueJob) (done : List Statement) : Prop where
  opens : sent <+: jobs.filter (unmarked w.database)
  marks : done <+: (jobs.filter (unmarked w.database)).map (markerStatement updatedAt)
  after : w.afterAll trace = { database := execute done w.database, queue := w.queue ++ sent }
  finished : ∀ n, result = .ok n →
    done = (jobs.filter (unmarked w.database)).map (markerStatement updatedAt) ∧
      sent = jobs.filter (unmarked w.database)
  /-- A marker that is missing for a job that is sent is one that is lost by a failure. -/
  failed : sent ≠ [] → done = (jobs.filter (unmarked w.database)).map (markerStatement updatedAt) ∨
    ∃ before c after, trace = before ++ ⟨.send c, .ok ()⟩ :: after ∧ ∃ event ∈ after, Fails event

/-- The pending jobs are sent, and marked once they all have been. -/
theorem publishPendingOnce_runs {zod : Zod} {jobs : List QueueJob} (hjobs : ∀ job ∈ jobs, job.Valid zod)
    {updatedAt : String} {trace : List ImportEvent} {result : Except ErrorText Nat} {w : World}
    (h : (publishPendingOnce zod jobs updatedAt).Runs trace result) (hserved : w.Serves trace) :
    ∃ sent done, Published jobs updatedAt w trace result sent done := by
  have hnothing : ∀ {e : ErrorText}, w.afterAll trace = w → result = .error e →
      ∃ sent done, Published jobs updatedAt w trace result sent done := by
    rintro e hworld rfl
    exact ⟨[], [], ⟨List.nil_prefix, List.nil_prefix, by simpa using hworld, nofun,
      fun hne => absurd rfl hne⟩⟩
  rcases Prog.runs_andThen.mp h with ⟨reads, rest, pending, rfl, hreads, hrest⟩ | ⟨e, he, rfl⟩
  · obtain ⟨hworld, hpending⟩ := findPending_runs hreads (serves_append.mp hserved).1
    obtain rfl := hpending pending rfl
    by_cases hnone : (jobs.filter (unmarked w.database)).length = 0
    · rw [if_pos hnone] at hrest
      obtain ⟨rfl, rfl⟩ := Prog.runs_ret.mp hrest
      have hnil := List.length_eq_zero_iff.mp hnone
      refine ⟨[], [], ⟨List.nil_prefix, List.nil_prefix, ?_, fun _ _ => by rw [hnil]; exact ⟨rfl, rfl⟩,
        fun hne => absurd rfl hne⟩⟩
      rw [List.append_nil, hworld]
      simp
    · rw [if_neg hnone] at hrest
      have hvalid : ∀ job ∈ jobs.filter (unmarked w.database), job.Valid zod :=
        fun job hjob => hjobs job (List.mem_of_mem_filter hjob)
      rcases Prog.runs_andThen.mp hrest with ⟨sends, marks, ⟨⟩, rfl, hsends, hmarks⟩ | ⟨e, he, rfl⟩
      · obtain ⟨sent, hpublishes⟩ := queueSendBatch_publishes hvalid hsends w
        obtain rfl := hpublishes.finished rfl
        have hafter : (w.afterAll reads).afterAll sends =
            { w with queue := w.queue ++ jobs.filter (unmarked w.database) } := by
          rw [hworld, hpublishes.after]
        rcases Prog.runs_andThen.mp hmarks with ⟨writes, last, ⟨⟩, rfl, hwrites, hlast⟩ | ⟨e, he, rfl⟩
        · obtain ⟨done, hdone⟩ := batchStatements_writes hwrites
            { w with queue := w.queue ++ jobs.filter (unmarked w.database) }
          obtain ⟨rfl, rfl⟩ := Prog.runs_ret.mp hlast
          obtain rfl := hdone.finished rfl
          refine ⟨_, _, ⟨List.prefix_rfl, List.prefix_rfl, ?_, fun _ _ => ⟨rfl, rfl⟩, fun _ => .inl rfl⟩⟩
          rw [List.append_nil, afterAll_append, afterAll_append, hafter, hdone.after]
        · obtain ⟨done, hdone⟩ := batchStatements_writes he
            { w with queue := w.queue ++ jobs.filter (unmarked w.database) }
          refine ⟨_, done, ⟨List.prefix_rfl, hdone.opens, ?_, nofun, fun hne => .inr ?_⟩⟩
          · rw [afterAll_append, afterAll_append, hafter, hdone.after]
          · obtain ⟨before, c, after, rfl, -⟩ := hpublishes.taken hne
            obtain ⟨event, hevent, hfails⟩ := hdone.failed e rfl
            exact ⟨reads ++ before, c, after ++ marks, by simp, event, List.mem_append_right _ hevent, hfails⟩
      · obtain ⟨sent, hpublishes⟩ := queueSendBatch_publishes hvalid he w
        refine ⟨sent, [], ⟨hpublishes.opens, List.nil_prefix, ?_, nofun, fun hne => .inr ?_⟩⟩
        · rw [afterAll_append, hworld, hpublishes.after]
          rfl
        · obtain ⟨before, c, after, rfl, hfails⟩ := hpublishes.taken hne
          exact ⟨reads ++ before, c, after, by simp, hfails e rfl⟩
  · exact hnothing (findPending_runs he hserved).1 rfl

/-! ## One import -/

/-- What one import does: some of its statements, some of its jobs, and some of their markers. -/
structure Imports (run : ImportRun) (w : World) (statements done marks : List Statement)
    (sent : List QueueJob) : Prop where
  opens : done <+: statements
  after : w.afterAll run.trace =
    { database := execute marks (execute done w.database), queue := w.queue ++ sent }
  sends : sent <+: run.snapshot.pendingJobs.filter (unmarked (execute done w.database))
  markers : marks <+: (run.snapshot.pendingJobs.filter (unmarked (execute done w.database))).map
    (markerStatement run.snapshot.exportedAt)
  finished : ∀ report, run.result = .ok report → done = statements ∧
    marks = (run.snapshot.pendingJobs.filter (unmarked (execute done w.database))).map
      (markerStatement run.snapshot.exportedAt)
  failed : sent ≠ [] →
    marks = (run.snapshot.pendingJobs.filter (unmarked (execute done w.database))).map
      (markerStatement run.snapshot.exportedAt) ∨
    ∃ before c after, run.trace = before ++ ⟨.send c, .ok ()⟩ :: after ∧ ∃ event ∈ after, Fails event

/-- A count of the tables changes nothing. -/
theorem countTables_runs {tables : List String} {trace : List ImportEvent}
    {result : Except ErrorText (Entries Nat)} (h : (countTables tables).Runs trace result) (w : World) :
    w.afterAll trace = w := by
  induction tables generalizing trace result with
  | nil =>
    obtain ⟨rfl, rfl⟩ := Prog.runs_ret.mp h
    rfl
  | cons table tables ih =>
    obtain ⟨answer, rest, rfl, hrest⟩ := Prog.runs_call.mp h
    rcases answer with e | count
    · obtain ⟨rfl, rfl⟩ := Prog.runs_ret.mp hrest
      rfl
    · rcases Prog.runs_andThen.mp hrest with ⟨first, second, counts, rfl, hfirst, hsecond⟩ | ⟨e, he, rfl⟩
      · obtain ⟨rfl, rfl⟩ := Prog.runs_ret.mp hsecond
        rw [List.append_nil]
        exact (ih hfirst : w.afterAll first = w)
      · exact (ih he : w.afterAll rest = w)

/-- What is accepted by the schema of the jobs. -/
def Accepted (zod : Zod) (snapshot : LegacySnapshot) : Prop :=
  ∀ job ∈ snapshot.pendingJobs, job.Valid zod

/-- An import fails before it writes, or writes a part of its statements. -/
theorem imports_writes {zod : Zod} {cipher : Cipher} {run : ImportRun} {w : World}
    (hrun : run.From zod cipher w) (haccepted : Accepted zod run.snapshot) :
    (w.afterAll run.trace = w ∧ ∃ e, run.result = .error e) ∨
      ∃ statements, snapshotStatements cipher run.ivs run.snapshot = .ok statements ∧
        ∃ done marks sent, Imports run w statements done marks sent := by
  obtain ⟨ivs, snapshot, trace, result⟩ := run
  obtain ⟨hruns, hserved⟩ := hrun
  dsimp only at hruns hserved haccepted ⊢
  unfold importSnapshot at hruns
  rcases hstatements : snapshotStatements cipher ivs snapshot with e | statements
  · rw [hstatements] at hruns
    obtain ⟨rfl, rfl⟩ := Prog.runs_ret.mp hruns
    exact .inl ⟨rfl, e, rfl⟩
  · rw [hstatements] at hruns
    refine .inr ⟨statements, rfl, ?_⟩
    rcases Prog.runs_andThen.mp hruns with ⟨first, rest, ⟨⟩, rfl, hfirst, hrest⟩ | ⟨e, he, rfl⟩
    · obtain ⟨done, hdone⟩ := batchStatements_writes hfirst w
      obtain rfl := hdone.finished rfl
      have hserves := (serves_append.mp hserved).2
      rw [hdone.after] at hserves
      rcases Prog.runs_andThen.mp hrest with ⟨second, counts, n, rfl, hsecond, hcounts⟩ | ⟨e, he, rfl⟩
      · obtain ⟨sent, marks, hpublished⟩ :=
          publishPendingOnce_runs haccepted hsecond (serves_append.mp hserves).1
        have hcount : ∀ w : World, w.afterAll counts = w := by
          intro w
          rcases Prog.runs_andThen.mp hcounts with ⟨first, last, totals, rfl, hfirst, hlast⟩ | ⟨e, he, -⟩
          · obtain ⟨rfl, -⟩ := Prog.runs_ret.mp hlast
            rw [List.append_nil]
            exact countTables_runs hfirst w
          · exact countTables_runs he w
        refine ⟨done, marks, sent, ⟨List.prefix_rfl, ?_, hpublished.opens, hpublished.marks,
          fun _ _ => ⟨rfl, (hpublished.finished n rfl).1⟩, fun _ => .inl (hpublished.finished n rfl).1⟩⟩
        rw [afterAll_append, afterAll_append, hdone.after, hpublished.after, hcount]
      · obtain ⟨sent, marks, hpublished⟩ := publishPendingOnce_runs haccepted he hserves
        refine ⟨done, marks, sent, ⟨List.prefix_rfl, ?_, hpublished.opens, hpublished.marks, nofun,
          fun hne => (hpublished.failed hne).imp_right ?_⟩⟩
        · rw [afterAll_append, hdone.after, hpublished.after]
        · rintro ⟨before, c, after, rfl, hfails⟩
          exact ⟨first ++ before, c, after, by simp, hfails⟩
    · obtain ⟨done, hdone⟩ := batchStatements_writes he w
      refine ⟨done, [], [], ⟨hdone.opens, ?_, List.nil_prefix, List.nil_prefix, nofun,
        fun hne => absurd rfl hne⟩⟩
      rw [hdone.after]
      simp

/-! ## The statements of a snapshot -/

/-- The rows of jobs and of dead letters. -/
def Key.isRecord : Key → Bool
  | .workerJob _ | .deadLetter _ => true
  | _ => false

/-- A record is only inserted where there is none. -/
theorem statements_ignore {cipher : Cipher} {ivs : Nat → Bytes} {snapshot : LegacySnapshot}
    {statements : List Statement} (h : snapshotStatements cipher ivs snapshot = .ok statements)
    {s : Statement} (hs : s ∈ statements) (hkey : s.key.isRecord = true) : s.ignore = true := by
  obtain ⟨credentials, hcredentials, h⟩ := bind_ok.mp h
  obtain ⟨sessions, hsessions, h⟩ := bind_ok.mp h
  cases h
  simp only [List.mem_append, List.mem_flatMap, List.mem_map] at hs
  rcases hs with (((((((((⟨row, -, hs⟩ | ⟨row, -, hs⟩) | ⟨row, -, hs⟩) | hs) | hs) | ⟨row, -, rfl⟩) |
    ⟨row, -, rfl⟩) | ⟨row, -, rfl⟩) | ⟨row, -, rfl⟩) | ⟨row, -, rfl⟩) | ⟨row, -, rfl⟩
  · simp only [telegramOffsetStatements, List.mem_cons, List.not_mem_nil, or_false] at hs
    rcases hs with rfl | rfl <;> cases hkey
  · simp only [didaSyncStateStatements, List.mem_cons, List.not_mem_nil, or_false] at hs
    rcases hs with rfl | rfl <;> cases hkey
  · simp only [baselineStatements, List.mem_cons, List.not_mem_nil, or_false] at hs
    rcases hs with rfl | rfl <;> cases hkey
  · obtain ⟨row, -, hrow⟩ := exists_of_mem_mapM hcredentials hs
    obtain ⟨envelope, -, rfl⟩ := map_ok.mp hrow
    cases hkey
  · obtain ⟨row, -, hrow⟩ := exists_of_mem_mapM hsessions hs
    obtain ⟨envelope, -, rfl⟩ := map_ok.mp hrow
    cases hkey
  · cases hkey
  · rfl
  · cases hkey
  · rfl
  · rfl
  · cases hkey

/-- Rows that differ in the IV of what is encrypted in them only. -/
def SameRow (cipher : Cipher) : (key : Key) → Row key → Row key → Prop
  | .credential _, row, row' =>
    cipher.decrypt row.payloadEncrypted = cipher.decrypt row'.payloadEncrypted ∧
      row = { row' with payloadEncrypted := row.payloadEncrypted }
  | .loginSession _, row, row' =>
    cipher.decrypt row.storageStateEncrypted = cipher.decrypt row'.storageStateEncrypted ∧
      row = { row' with storageStateEncrypted := row.storageStateEncrypted }
  | _, row, row' => row = row'

theorem sameRow_refl (cipher : Cipher) (key : Key) (row : Row key) : SameRow cipher key row row := by
  cases key
  case credential | loginSession => exact ⟨rfl, rfl⟩
  all_goals rfl

/-- A row that is written twice is as it was written once. -/
theorem sameRow_overwrite (cipher : Cipher) (key : Key) (row a a' : Row key)
    (h : SameRow cipher key a a') :
    SameRow cipher key (overwriteRow key row a') (overwriteRow key row a) := by
  cases key
  case credential | loginSession =>
    obtain ⟨hdecrypt, hrow⟩ := h
    refine ⟨hdecrypt.symm, ?_⟩
    rw [hrow]
    rfl
  all_goals
    obtain rfl : a = a' := h
    rfl

theorem alike_refl (cipher : Cipher) (s : Statement) : Alike (SameRow cipher) s s :=
  .intro s.ignore (sameRow_refl cipher s.key s.row)

/-- The statements of one snapshot differ in the IVs only. -/
theorem statements_alike {cipher : Cipher} (hcipher : cipher.Lawful) {ivs ivs' : Nat → Bytes}
    {snapshot : LegacySnapshot} {statements statements' : List Statement}
    (h : snapshotStatements cipher ivs snapshot = .ok statements)
    (h' : snapshotStatements cipher ivs' snapshot = .ok statements') :
    List.Forall₂ (Alike (SameRow cipher)) statements statements' := by
  obtain ⟨credentials, hcredentials, h⟩ := bind_ok.mp h
  obtain ⟨sessions, hsessions, h⟩ := bind_ok.mp h
  obtain ⟨credentials', hcredentials', h'⟩ := bind_ok.mp h'
  obtain ⟨sessions', hsessions', h'⟩ := bind_ok.mp h'
  cases h
  cases h'
  have hdecrypt : ∀ {iv iv' value envelope envelope'}, encryptJson cipher iv value = .ok envelope →
      encryptJson cipher iv' value = .ok envelope' →
      cipher.decrypt envelope = cipher.decrypt envelope' := fun h h' => by
    rw [hcipher.decrypt_encrypt _ _ _ h, hcipher.decrypt_encrypt _ _ _ h']
  have hcredential : List.Forall₂ (Alike (SameRow cipher)) credentials credentials' := by
    refine mapM_rel (fun row s s' hs hs' => ?_) hcredentials hcredentials'
    obtain ⟨envelope, henvelope, rfl⟩ := map_ok.mp hs
    obtain ⟨envelope', henvelope', rfl⟩ := map_ok.mp hs'
    exact .intro false ⟨hdecrypt henvelope henvelope', rfl⟩
  have hsession : List.Forall₂ (Alike (SameRow cipher)) sessions sessions' := by
    refine mapM_rel (fun row s s' hs hs' => ?_) hsessions hsessions'
    obtain ⟨envelope, henvelope, rfl⟩ := map_ok.mp hs
    obtain ⟨envelope', henvelope', rfl⟩ := map_ok.mp hs'
    exact .intro false ⟨hdecrypt henvelope henvelope', rfl⟩
  have hsame : ∀ l : List Statement, List.Forall₂ (Alike (SameRow cipher)) l l :=
    fun l => List.forall₂_same.mpr fun s _ => alike_refl cipher s
  repeat' first | exact hcredential | exact hsession | exact hsame _ | apply List.rel_append

/-! ## Once more -/

theorem markers_ignore {jobs : List QueueJob} {updatedAt : String} {s : Statement}
    (hs : s ∈ jobs.map (markerStatement updatedAt)) : s.ignore = true := by
  obtain ⟨job, -, rfl⟩ := List.mem_map.mp hs
  rfl

/-- A job has a marker once the markers of the jobs without one are written. -/
theorem marked_of_written {database : Database} {jobs : List QueueJob} {updatedAt : String}
    {job : QueueJob} (hjob : job ∈ jobs) :
    unmarked (execute ((jobs.filter (unmarked database)).map (markerStatement updatedAt)) database) job =
      false := by
  rw [unmarked, ← Option.not_isSome, Bool.not_eq_false']
  rcases hmarked : unmarked database job with _ | _
  · rw [unmarked, ← Option.not_isSome, Bool.not_eq_false'] at hmarked
    exact isSome_execute hmarked _
  · exact isSome_execute_of_mem (List.mem_map_of_mem (List.mem_filter.mpr ⟨hjob, hmarked⟩)) database

theorem unmarked_execute {database : Database} {job : QueueJob} (h : unmarked database job = false)
    (statements : List Statement) : unmarked (execute statements database) job = false := by
  rw [unmarked, ← Option.not_isSome, Bool.not_eq_false'] at h ⊢
  exact isSome_execute h statements

theorem optionRel_refl {α : Type} {R : α → α → Prop} (h : ∀ a, R a a) (value : Option α) :
    Option.Rel R value value := by
  rcases value with _ | a
  · exact .none
  · exact .some (h a)

/-- The rows of two databases, up to the IVs. -/
def SameRows (cipher : Cipher) (database database' : Database) : Prop :=
  ∀ key, Option.Rel (SameRow cipher key) (database key) (database' key)

section Twice

variable {zod : Zod} {cipher : Cipher} (hcipher : cipher.Lawful) {w : World} {first second : ImportRun}
  {report report' : ImportReport}

include hcipher

/-- **The same snapshot once more changes nothing but IVs, and sends nothing.** -/
theorem imported_twice (hfirst : first.From zod cipher w)
    (hsecond : second.From zod cipher (w.afterAll first.trace)) (hsnapshot : second.snapshot = first.snapshot)
    (haccepted : Accepted zod first.snapshot) (hreport : first.result = .ok report)
    (hreport' : second.result = .ok report') :
    SameRows cipher ((w.afterAll first.trace).afterAll second.trace).database
        (w.afterAll first.trace).database ∧
      ((w.afterAll first.trace).afterAll second.trace).queue = (w.afterAll first.trace).queue := by
  rcases imports_writes hfirst haccepted with ⟨-, e, he⟩ | ⟨statements, hstatements, done, marks, sent, himports⟩
  · rw [hreport] at he
    cases he
  rcases imports_writes hsecond (hsnapshot ▸ haccepted) with
    ⟨-, e, he⟩ | ⟨statements', hstatements', done', marks', sent', himports'⟩
  · rw [hreport'] at he
    cases he
  obtain ⟨rfl, rfl⟩ := himports.finished report hreport
  obtain ⟨rfl, -⟩ := himports'.finished report' hreport'
  rw [hsnapshot] at hstatements'
  -- every job has a marker now
  have hnone : second.snapshot.pendingJobs.filter
      (unmarked (execute done' (w.afterAll first.trace).database)) = [] := by
    rw [List.filter_eq_nil_iff, hsnapshot, himports.after]
    intro job hjob
    rw [Bool.not_eq_true]
    exact unmarked_execute (marked_of_written hjob) done'
  have hmarks' := himports'.markers
  have hsent' := himports'.sends
  rw [hnone] at hmarks' hsent'
  obtain rfl := List.prefix_nil.mp hsent'
  obtain rfl : marks' = [] := List.prefix_nil.mp hmarks'
  rw [himports'.after]
  refine ⟨fun key => ?_, List.append_nil _⟩
  rw [himports.after]
  have hignore : ∀ s ∈ (first.snapshot.pendingJobs.filter (unmarked (execute done w.database))).map
      (markerStatement first.snapshot.exportedAt), s.ignore = true := fun s hs => markers_ignore hs
  generalize (first.snapshot.pendingJobs.filter (unmarked (execute done w.database))).map
    (markerStatement first.snapshot.exportedAt) = markers at hignore
  change Option.Rel (SameRow cipher key)
    (execute done' (execute markers (execute done w.database)) key)
    (execute markers (execute done w.database) key)
  have halike := statements_alike hcipher hstatements hstatements'
  rcases hrow : execute done w.database key with _ | row
  · -- no statement is about this key
    have hkeys : ∀ s ∈ done, s.key ≠ key := by
      rintro s hs rfl
      have hsome := isSome_execute_of_mem hs w.database
      rw [hrow] at hsome
      cases hsome
    have hkeys' : ∀ s ∈ done', s.key ≠ key := by
      rintro s hs rfl
      have hmem : s.key ∈ done.map Insert.key := keys_eq halike ▸ List.mem_map_of_mem hs
      obtain ⟨t, ht, hkey⟩ := List.mem_map.mp hmem
      exact hkeys t ht hkey
    rw [execute_untouched hkeys']
    exact optionRel_refl (sameRow_refl cipher key) _
  · -- the row is left alone by the markers
    have hmarked := execute_ignored (fun s hs _ => hignore s hs) hrow
    have htwice := execute_twice (sameRow_refl cipher) (sameRow_overwrite cipher) halike w.database key
    rw [execute_congr (hmarked.trans hrow.symm), hmarked, ← hrow]
    exact htwice

end Twice

/-! ## Jobs and dead letters -/

/-- **No row of a job or of a dead letter is changed by an import.** -/
theorem records_kept {zod : Zod} {cipher : Cipher} {run : ImportRun} {w : World}
    (hrun : run.From zod cipher w) (haccepted : Accepted zod run.snapshot) {key : Key}
    (hkey : key.isRecord = true) {row : Row key} (hrow : w.database key = some row) :
    (w.afterAll run.trace).database key = some row := by
  rcases imports_writes hrun haccepted with ⟨hworld, -⟩ | ⟨statements, hstatements, done, marks, sent, himports⟩
  · rw [hworld]
    exact hrow
  · rw [himports.after]
    refine execute_ignored (fun s hs _ => markers_ignore (himports.markers.subset hs))
      (execute_ignored (fun s hs heq => ?_) hrow)
    exact statements_ignore hstatements (himports.opens.subset hs) (heq ▸ hkey)

/-! ## Once each -/

/-- A call of the queue that is taken is followed by none that is not, and by no failed batch. -/
def Settles (trace : List ImportEvent) : Prop :=
  ∀ before c after, trace = before ++ ⟨.send c, .ok ()⟩ :: after → ∀ event ∈ after, ¬ Fails event

/--
No two pending entries without a marker have one id, and once an import has sent something it goes on
to write its markers.
-/
structure ImportRun.Orderly (run : ImportRun) (w : World) : Prop where
  distinct : ((run.snapshot.pendingJobs.filter (unmarked w.database)).map (·.jobId)).Nodup
  settled : Settles run.trace

/-- Every import is orderly where it begins. -/
def AllOrderly : World → List ImportRun → Prop
  | _, [] => True
  | w, run :: runs => run.Orderly w ∧ AllOrderly (w.afterAll run.trace) runs

/-- No job was sent twice, and those that were sent have markers. -/
structure SentOnce (w : World) : Prop where
  once : (w.queue.map (·.jobId)).Nodup
  marked : ∀ job ∈ w.queue, unmarked w.database job = false

/-- An orderly import sends no job that had been sent. -/
theorem import_sentOnce {zod : Zod} {cipher : Cipher} {run : ImportRun} {w : World}
    (hrun : run.From zod cipher w) (haccepted : Accepted zod run.snapshot) (horderly : run.Orderly w)
    (h : SentOnce w) : SentOnce (w.afterAll run.trace) := by
  rcases imports_writes hrun haccepted with ⟨hworld, -⟩ | ⟨statements, hstatements, done, marks, sent, himports⟩
  · rw [hworld]
    exact h
  · rw [himports.after]
    have hunmarked : ∀ job ∈ sent, job ∈ run.snapshot.pendingJobs ∧
        unmarked (execute done w.database) job = true :=
      fun job hjob => List.mem_filter.mp (himports.sends.subset hjob)
    -- what has no marker after the statements had none before
    have hsublist : sent.Sublist (run.snapshot.pendingJobs.filter (unmarked w.database)) := by
      refine himports.sends.sublist.trans (List.monotone_filter_right _ fun job hjob => ?_)
      by_contra hmarked
      rw [Bool.not_eq_true] at hmarked
      rw [unmarked_execute hmarked done] at hjob
      cases hjob
    refine ⟨?_, fun job hjob => ?_⟩
    · rw [List.map_append, List.nodup_append]
      refine ⟨h.once, horderly.distinct.sublist (hsublist.map _), ?_⟩
      rintro id hid id' hid' rfl
      obtain ⟨job, hjob, rfl⟩ := List.mem_map.mp hid
      obtain ⟨other, hother, hsame⟩ := List.mem_map.mp hid'
      have hmarked := unmarked_execute (h.marked job hjob) done
      have hnot := (hunmarked other hother).2
      rw [unmarked, hsame, ← unmarked, hmarked] at hnot
      cases hnot
    · rcases List.mem_append.mp hjob with hjob | hjob
      · exact unmarked_execute (unmarked_execute (h.marked job hjob) done) marks
      · have hmarks : marks = (run.snapshot.pendingJobs.filter (unmarked (execute done w.database))).map
            (markerStatement run.snapshot.exportedAt) := by
          rcases himports.failed (List.ne_nil_of_mem hjob) with hmarks | ⟨before, c, after, htrace, event, hevent, hfails⟩
          · exact hmarks
          · exact absurd hfails (horderly.settled before c after htrace event hevent)
        rw [hmarks]
        exact marked_of_written (hunmarked job hjob).1

theorem imports_sentOnce {zod : Zod} {cipher : Cipher} {runs : List ImportRun} {w : World}
    (hruns : ImportsFrom zod cipher w runs) (haccepted : ∀ run ∈ runs, Accepted zod run.snapshot)
    (horderly : AllOrderly w runs) (h : SentOnce w) : SentOnce (w.afterRuns runs) := by
  induction runs generalizing w with
  | nil => exact h
  | cons run runs ih =>
    obtain ⟨hrun, hrest⟩ := hruns
    obtain ⟨hfirst, hlater⟩ := horderly
    obtain ⟨haccept, haccepts⟩ := List.forall_mem_cons.mp haccepted
    exact ih hrest haccepts hlater (import_sentOnce hrun haccept hfirst h)

/--
**An import is idempotent, keeps the records of jobs, and sends each job once.** Two imports of one
snapshot that succeed leave what one leaves, up to IVs, and the second sends nothing. No row of a job
or of a dead letter is changed. In any run of imports, some of which may have failed anywhere, no job
is sent twice, if no two pending entries without a marker have one id and each import that has sent
something wrote its markers.
-/
theorem imports_publish_once (zod : Zod) (cipher : Cipher) (hcipher : cipher.Lawful) :
    (∀ (w : World) (first second : ImportRun) (report report' : ImportReport),
      first.From zod cipher w → second.From zod cipher (w.afterAll first.trace) →
      second.snapshot = first.snapshot →
      Accepted zod first.snapshot → first.result = .ok report → second.result = .ok report' →
        SameRows cipher ((w.afterAll first.trace).afterAll second.trace).database
          (w.afterAll first.trace).database ∧
        ((w.afterAll first.trace).afterAll second.trace).queue = (w.afterAll first.trace).queue) ∧
    (∀ (w : World) (run : ImportRun), run.From zod cipher w → Accepted zod run.snapshot → ∀ (key : Key) (row : Row key),
      key.isRecord = true → w.database key = some row →
        (w.afterAll run.trace).database key = some row) ∧
    ∀ (w : World) (runs : List ImportRun), ImportsFrom zod cipher w runs → (∀ run ∈ runs, Accepted zod run.snapshot) →
      AllOrderly w runs → w.queue = [] → ((w.afterRuns runs).queue.map (·.jobId)).Nodup := by
  refine ⟨fun w first second report report' hfirst hsecond hsnapshot haccepted hreport hreport' =>
    imported_twice hcipher hfirst hsecond hsnapshot haccepted hreport hreport',
    fun w run hrun haccepted key row hkey hrow => records_kept hrun haccepted hkey hrow,
    fun w runs hruns haccepted horderly hqueue => ?_⟩
  exact (imports_sentOnce hruns haccepted horderly ⟨by simp [hqueue], by simp [hqueue]⟩).once

/-! ## Imports without failures -/

/-- The answer of a world in which nothing fails; the counts are not told. -/
def World.succeed (w : World) : (c : ImportCall) → c.Answer
  | .batch _ => .ok ()
  | .found key => .ok (w.database (.workerState key)).isSome
  | .send _ => .ok ()
  | .count _ => .ok 0

/-- The run of a program in such a world. -/
def undisturbed {α : Type} : World → Prog ImportCall ImportCall.Answer α → List ImportEvent × α
  | _, .ret a => ([], a)
  | w, .call c k =>
    let e : ImportEvent := ⟨c, w.succeed c⟩
    let rest := undisturbed (w.after e) (k (w.succeed c))
    (e :: rest.1, rest.2)

/-- A run that nothing disturbs is one of the program, and no call of it fails. -/
theorem undisturbed_runs {α : Type} (p : Prog ImportCall ImportCall.Answer α) (w : World) :
    p.Runs (undisturbed w p).1 (undisturbed w p).2 ∧ w.Serves (undisturbed w p).1 ∧
      ∀ e ∈ (undisturbed w p).1, ¬ Fails e := by
  induction p generalizing w with
  | ret a => exact ⟨.ret a, trivial, by simp [undisturbed]⟩
  | call c k ih =>
    obtain ⟨hruns, hserves, hfails⟩ := ih (w.succeed c) (w.after ⟨c, w.succeed c⟩)
    refine ⟨.call hruns, ⟨?_, hserves⟩, List.forall_mem_cons.mpr ⟨?_, hfails⟩⟩
    · cases c
      case found => rfl
      all_goals trivial
    · cases c <;> exact id

theorem settles_of_succeeds {trace : List ImportEvent} (h : ∀ e ∈ trace, ¬ Fails e) : Settles trace := by
  rintro before c after rfl event hevent
  exact h event (by simp [hevent])

/-- An import without failures. -/
def undisturbedRun (zod : Zod) (cipher : Cipher) (ivs : Nat → Bytes) (snapshot : LegacySnapshot)
    (w : World) : ImportRun :=
  let run := undisturbed w (importSnapshot zod cipher ivs snapshot)
  { ivs, snapshot, trace := run.1, result := run.2 }

theorem undisturbedRun_from (zod : Zod) (cipher : Cipher) (ivs : Nat → Bytes) (snapshot : LegacySnapshot)
    (w : World) : (undisturbedRun zod cipher ivs snapshot w).From zod cipher w :=
  ⟨(undisturbed_runs _ w).1, (undisturbed_runs _ w).2.1⟩

namespace Sample

open InboxServer.Sample

def payload : Json := .obj [("cookie", .str "a=b")]

/-- The ciphertext and tag of the payload, under a key of 32 zeros and the IV of the first run. -/
def sealedFirst : Bytes :=
  [46, 47, 66, 229, 23, 143, 197, 167, 89, 7, 243, 70, 83, 237, 189, 129, 137, 158, 136, 219, 16, 18,
    29, 234, 41, 48, 86, 47, 74, 238, 250, 219]

/-- And under that of the second run. -/
def sealedSecond : Bytes :=
  [125, 226, 161, 9, 38, 195, 106, 73, 2, 149, 216, 179, 163, 194, 81, 243, 173, 164, 53, 117, 43, 8,
    214, 21, 13, 146, 72, 95, 175, 162, 31, 36]

/-- The version byte and the IV come before the ciphertext. -/
def envelopes : List (Bytes × Bytes) :=
  [(iv, 1 :: iv ++ sealedFirst), (iv.reverse, 1 :: iv.reverse ++ sealedSecond)]

def cipher : Cipher where
  encrypt iv text :=
    match envelopes.lookup iv with
    | some envelope => if text = payload.stringify then .ok envelope else .error "OperationError"
    | none => .error "OperationError"
  decrypt envelope := if envelope ∈ envelopes.map Prod.snd then some payload.stringify else none

/-- The cipher of the samples opens what it has sealed. -/
theorem cipher_lawful : cipher.Lawful where
  decrypt_encrypt iv text envelope h := by
    simp only [cipher] at h ⊢
    split at h
    next found hfound =>
      split_ifs at h with htext
      obtain ⟨before, after, hsplit, -⟩ := List.lookup_eq_some_iff.mp hfound
      have hmem : (iv, found) ∈ envelopes := by
        rw [hsplit]
        exact List.mem_append_right _ List.mem_cons_self
      rw [← Except.ok.inj h, htext, if_pos (List.mem_map_of_mem hmem)]
    next => cases h

def snapshot (pendingJobs : List QueueJob) : LegacySnapshot where
  exportedAt := createdAt
  articleEvents := []
  baselines := [⟨["https://example.com/a"], "inoreader"⟩]
  credentials := [⟨"cookie", "zhihu", some payload, "zhihu"⟩]
  didaSyncStates := []
  loginSessions := []
  subscriptions := []
  syncJobs := []
  telegramOffsets := [⟨"0123456789abcdef0123456789abcdef", 7, none⟩]
  deadLetters := []
  doneJobs := [⟨createdAt, "text:0", .text, "0b7c6f4e-2a55-4d0c-9d8e-0f3a2b1c4d5e"⟩]
  pendingJobs
  rateLimits := []

def emptyWorld : World := ⟨fun _ => none, []⟩

def firstRun (pendingJobs : List QueueJob) : ImportRun :=
  undisturbedRun zod cipher (fun _ => iv) (snapshot pendingJobs) emptyWorld

def secondRun (pendingJobs : List QueueJob) : ImportRun :=
  undisturbedRun zod cipher (fun _ => iv.reverse) (snapshot pendingJobs)
    (emptyWorld.afterAll (firstRun pendingJobs).trace)

/-- Two jobs. -/
def jobs : List QueueJob := [textJob firstId, textJob secondId]

theorem accepted_snapshot : Accepted zod (snapshot jobs) := by
  intro job hjob
  simp only [snapshot, jobs, List.mem_cons, List.not_mem_nil, or_false] at hjob
  rcases hjob with rfl | rfl
  · exact textJob_valid firstId (by decide)
  · exact textJob_valid secondId (by decide)

theorem firstRun_from (pendingJobs : List QueueJob) :
    (firstRun pendingJobs).From zod cipher emptyWorld := undisturbedRun_from ..

theorem secondRun_from (pendingJobs : List QueueJob) : (secondRun pendingJobs).From zod cipher
    (emptyWorld.afterAll (firstRun pendingJobs).trace) := undisturbedRun_from ..

theorem imports_publish_once_two :
    ((emptyWorld.afterAll (firstRun jobs).trace).afterAll (secondRun jobs).trace).queue =
        (emptyWorld.afterAll (firstRun jobs).trace).queue ∧
      ((emptyWorld.afterRuns [firstRun jobs, secondRun jobs]).queue.map (·.jobId)).Nodup := by
  obtain ⟨htwice, -, honce⟩ := imports_publish_once zod cipher cipher_lawful
  have hok : (firstRun jobs).result.isOk = true := by decide +kernel
  have hok' : (secondRun jobs).result.isOk = true := by decide +kernel
  obtain ⟨report, hreport⟩ : ∃ report, (firstRun jobs).result = .ok report := by
    rcases hresult : (firstRun jobs).result with e | report
    · rw [hresult] at hok
      cases hok
    · exact ⟨report, rfl⟩
  obtain ⟨report', hreport'⟩ : ∃ report, (secondRun jobs).result = .ok report := by
    rcases hresult : (secondRun jobs).result with e | report
    · rw [hresult] at hok'
      cases hok'
    · exact ⟨report, rfl⟩
  have hsettles : Settles (firstRun jobs).trace := settles_of_succeeds (undisturbed_runs _ _).2.2
  have hsettles' : Settles (secondRun jobs).trace := settles_of_succeeds (undisturbed_runs _ _).2.2
  refine ⟨(htwice emptyWorld _ _ report report' (firstRun_from jobs) (secondRun_from jobs) rfl
    accepted_snapshot hreport hreport').2, honce emptyWorld _
      ⟨firstRun_from jobs, secondRun_from jobs, trivial⟩ ?_
      ⟨⟨by decide +kernel, hsettles⟩, ⟨by decide +kernel, hsettles'⟩, trivial⟩ rfl⟩
  intro run hrun
  rcases List.mem_pair.mp hrun with rfl | rfl
  · exact accepted_snapshot
  · exact accepted_snapshot

/-- One entry twice. -/
def repeated : List QueueJob := [textJob firstId, textJob firstId]

/-- A job that is twice in one snapshot is sent twice. -/
theorem repeated_job_sent_twice :
    ImportsFrom zod cipher emptyWorld [firstRun repeated] ∧
      (∀ run ∈ [firstRun repeated], Accepted zod run.snapshot) ∧
      ((emptyWorld.afterRuns [firstRun repeated]).queue.map (·.jobId)) = [firstId, firstId] ∧
      ¬ ((emptyWorld.afterRuns [firstRun repeated]).queue.map (·.jobId)).Nodup := by
  have hqueue : (emptyWorld.afterRuns [firstRun repeated]).queue.map (·.jobId) = [firstId, firstId] := by
    decide +kernel
  refine ⟨⟨firstRun_from repeated, trivial⟩, ?_, hqueue, by rw [hqueue]; decide⟩
  intro run hrun job hjob
  rw [List.mem_singleton.mp hrun] at hjob
  rcases List.mem_pair.mp hjob with rfl | rfl
  · exact textJob_valid firstId (by decide)
  · exact textJob_valid firstId (by decide)

end Sample

end InboxServer.LegacyImport
