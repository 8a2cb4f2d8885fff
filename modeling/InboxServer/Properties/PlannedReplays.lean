import InboxServer.Api.ReplayRoutes
import InboxServer.Domain.JsonText
import InboxServer.Properties.Consistency

/-!
# Replays that follow a plan

`replays/execute` makes the plan again and compares its hash with the submitted one, and then
replays; the two are separate calls, and other calls come between them.

* `planHash_inj` — a hash is that of one state
* `executes_approved_plan` — a message is inserted in the approved state, where nothing of the job
  has moved since the plan was made
* `executes_other_plan` — a job that was replayed and died again in between
-/

namespace InboxServer

open Infra
open Postgres (ReplayStateRow ReplayPlan replayState latestEffect latestReplay namedEnvelope planHash
  canonicalPlan jsonNullable)

/-! ## Hashes of plans -/

theorem JobStatus.name_injective : Function.Injective JobStatus.name := by
  intro a b h
  cases a <;> cases b <;> first | rfl | exact absurd h (by decide)

theorem EnvelopeStatus.name_injective : Function.Injective EnvelopeStatus.name := by
  intro a b h
  cases a <;> cases b <;> first | rfl | exact absurd h (by decide)

theorem jsonNullable_injective {α : Type} {text : α → String} (htext : Function.Injective text) :
    Function.Injective (jsonNullable text) := by
  intro a b h
  cases a with
  | none =>
    cases b with
    | none => rfl
    | some b => cases h
  | some a =>
    cases b with
    | none => cases h
    | some b => exact congrArg some (htext (Json.str.inj h))

theorem numberFree_jsonNullable {α : Type} (text : α → String) (value : Option α) :
    (jsonNullable text value).numberFree = true := by
  cases value <;> rfl

theorem Postgres.ReplayStateRow.toJson_injective : Function.Injective ReplayStateRow.toJson := by
  intro a b h
  simp only [ReplayStateRow.toJson, Json.obj.injEq, List.cons.injEq, Prod.mk.injEq, Json.str.injEq,
    true_and, and_true] at h
  obtain ⟨hstatus, hupdated, hcreated, henvelope, henvelopeStatus, henvelopeUpdated, heffect,
    hreplay⟩ := h
  cases a
  cases b
  simp only [ReplayStateRow.mk.injEq]
  exact ⟨JobStatus.name_injective hstatus, toISOString_injective hupdated,
    jsonNullable_injective toISOString_injective hcreated,
    jsonNullable_injective Function.injective_id henvelope,
    jsonNullable_injective EnvelopeStatus.name_injective henvelopeStatus,
    jsonNullable_injective toISOString_injective henvelopeUpdated,
    jsonNullable_injective toISOString_injective heffect,
    jsonNullable_injective toISOString_injective hreplay⟩

theorem numberFree_canonicalPlan (idempotencyKey jobId : String) (state : Option ReplayStateRow)
    (validation : ReplayReply) :
    (canonicalPlan idempotencyKey jobId state validation).numberFree = true := by
  cases state <;>
    simp [canonicalPlan, ReplayStateRow.toJson, Json.numberFree, Json.numberFreeFields,
      numberFree_jsonNullable]

/-- **The hash of a plan names the state that the plan was made of.** -/
theorem planHash_inj {env : Env} (hcollide : env.CollisionFree)
    {idempotencyKey idempotencyKey' jobId jobId' : String} {state state' : Option ReplayStateRow}
    {validation validation' : ReplayReply}
    (h : planHash env idempotencyKey jobId state validation =
      planHash env idempotencyKey' jobId' state' validation') : state = state' := by
  have hjson := Json.stringify_injective (numberFree_canonicalPlan _ _ _ _)
    (numberFree_canonicalPlan _ _ _ _) (hcollide h)
  simp only [canonicalPlan, Json.obj.injEq, List.cons.injEq, Prod.mk.injEq, true_and] at hjson
  have hstate := hjson.2.2.1
  cases state with
  | none =>
    cases state' with
    | none => rfl
    | some row' => cases hstate
  | some row =>
    cases state' with
    | none => cases hstate
    | some row' => exact congrArg some (ReplayStateRow.toJson_injective hstate)

/-! ## What moves the state of a job -/

/-- The job is dead. -/
def jobDead (jobId : String) (db : Db) : Bool :=
  (db.jobs.lookup JobRow.jobId jobId).map JobRow.status = some .dead

theorem jobDead_iff {jobId : String} {db : Db} : jobDead jobId db = true ↔
    ∃ row, db.jobs.lookup JobRow.jobId jobId = some row ∧ row.status = .dead := by
  simp [jobDead]

/-- The call publishes a replay of the job, or moves the latest change of its effects. -/
def moves (env : Env) (jobId : String) (db : Db) (input : Instant × ControlCall) : Bool :=
  match input.2 with
  | .job _ => false
  | .effect _ => latestEffect jobId ((controlMachine env).next db input) ≠ latestEffect jobId db
  | .replay replayed _ => replayed = jobId &&
    ((controlMachine env).next db input).replayOperations ≠ db.replayOperations

section Moves

variable {env : Env} {jobId : String} {db db' : Db} {row : JobRow}

theorem latestEffect_congr (h : db'.effects = db.effects) :
    latestEffect jobId db' = latestEffect jobId db := by
  unfold latestEffect
  rw [h]

theorem latestReplay_congr (h : db'.replayOperations = db.replayOperations) :
    latestReplay jobId db' = latestReplay jobId db := by
  unfold latestReplay
  rw [h]

/-- Where the dead job, its letter and its dead envelope stay, so does the state of the job. -/
theorem replayState_of_kept (hinv : EnvelopeInv db) (hletters : LettersMatch db)
    (hrow : db.jobs.lookup JobRow.jobId jobId = some row) (hdead : row.status = .dead)
    (hjobs : row ∈ db'.jobs)
    (henvelopes : ∀ envelope ∈ db.envelopes, envelope.jobId = jobId → envelope.status = .dead →
      envelope ∈ db'.envelopes)
    (hletter : db'.deadLetters.lookup DeadLetterRow.jobId jobId =
      db.deadLetters.lookup DeadLetterRow.jobId jobId)
    (heffect : latestEffect jobId db' = latestEffect jobId db)
    (hreplay : latestReplay jobId db' = latestReplay jobId db) :
    replayState jobId db' = replayState jobId db ∧ jobDead jobId db' = true := by
  have hid : row.jobId = jobId := Table.lookup_key hrow
  have hrow' : db'.jobs.lookup JobRow.jobId jobId = some row :=
    (Table.lookup_eq_some JobRow.isKey_jobId).mpr ⟨hjobs, hid⟩
  refine ⟨?_, jobDead_iff.mpr ⟨row, hrow', hdead⟩⟩
  have hnamed : (db.deadLetters.lookup DeadLetterRow.jobId jobId).bind (fun l => namedEnvelope l db') =
      (db.deadLetters.lookup DeadLetterRow.jobId jobId).bind fun l => namedEnvelope l db := by
    cases hl : db.deadLetters.lookup DeadLetterRow.jobId jobId with
    | none => rfl
    | some letter =>
      rw [Option.bind_some, Option.bind_some]
      have hletterId : letter.jobId = jobId := Table.lookup_key hl
      rcases hinv.letters letter (Table.lookup_mem hl) with hnone | hown
      · simp [namedEnvelope, hnone]
      · obtain ⟨envelope, henv, henvId, hdeadEnv, -⟩ := hletters row (Table.lookup_mem hrow) hdead
          letter (by rw [hid]; exact hl) (by rw [hown]; rfl)
        rw [hid] at henvId
        have hbefore : db.envelopes.lookup EnvelopeRow.jobId jobId = some envelope :=
          (Table.lookup_eq_some EnvelopeRow.isKey_jobId).mpr ⟨henv, henvId⟩
        have hafter : db'.envelopes.lookup EnvelopeRow.jobId jobId = some envelope :=
          (Table.lookup_eq_some EnvelopeRow.isKey_jobId).mpr
            ⟨henvelopes envelope henv henvId hdeadEnv, henvId⟩
        simp [namedEnvelope, hown, hletterId, hbefore, hafter]
  simp only [replayState, hrow, hrow', hletter, hnamed, heffect, hreplay]

/-- A dead job is claimed by nobody. -/
theorem replayState_claim (hinv : EnvelopeInv db) (hletters : LettersMatch db)
    (hrow : db.jobs.lookup JobRow.jobId jobId = some row) (hdead : row.status = .dead)
    (now : Instant) (iv : Bytes) (body : Json) :
    replayState jobId (Backend.postgres.claimJob env now iv body db).1 = replayState jobId db ∧
      jobDead jobId (Backend.postgres.claimJob env now iv body db).1 = true := by
  have houtcome := claimJob_outcome .postgres env now iv body db
  have hkeeps := houtcome.keepsDead
  have hrest : (Backend.claimJob env now iv body db .postgres).1.deadLetters = db.deadLetters ∧
      (Backend.claimJob env now iv body db .postgres).1.effects = db.effects ∧
      (Backend.claimJob env now iv body db .postgres).1.replayOperations = db.replayOperations := by
    generalize Backend.claimJob env now iv body db .postgres = result at houtcome
    cases houtcome with
    | refused | created | reclaimed => exact ⟨rfl, rfl, rfl⟩
  refine replayState_of_kept hinv hletters hrow hdead
    (hkeeps.jobs row (Table.lookup_mem hrow) hdead)
    (fun envelope henv _ => hkeeps.envelopes envelope henv) ?_ (latestEffect_congr hrest.2.1)
    (latestReplay_congr hrest.2.2)
  exact congrArg (fun t => t.lookup DeadLetterRow.jobId jobId) hrest.1

/-- A dead job has ended already, and the finish of another leaves its letter alone. -/
theorem replayState_finish (hinv : EnvelopeInv db) (hletters : LettersMatch db)
    (hrow : db.jobs.lookup JobRow.jobId jobId = some row) (hdead : row.status = .dead)
    (now : Instant) (finished : String) (result : JobResult) :
    replayState jobId (Backend.postgres.finishJob now finished result db).1 = replayState jobId db ∧
      jobDead jobId (Backend.postgres.finishJob now finished result db).1 = true := by
  have houtcome := finishJob_outcome .postgres now finished result db
  have hkeeps := houtcome.keepsDead hinv
  have hrest : (Backend.finishJob now finished result db .postgres).1.deadLetters.lookup
        DeadLetterRow.jobId jobId = db.deadLetters.lookup DeadLetterRow.jobId jobId ∧
      (Backend.finishJob now finished result db .postgres).1.effects = db.effects ∧
      (Backend.finishJob now finished result db .postgres).1.replayOperations =
        db.replayOperations := by
    generalize Backend.finishJob now finished result db .postgres = reply at houtcome
    cases houtcome with
    | threw | settled => exact ⟨rfl, rfl, rfl⟩
    | finished lookup live done settlement_eq =>
      refine ⟨done.letter_other ?_, done.effects, done.replayOperations⟩
      rintro rfl
      rw [Option.some.inj (lookup.symm.trans hrow), hdead] at live
      cases live
  exact replayState_of_kept hinv hletters hrow hdead
    (hkeeps.jobs row (Table.lookup_mem hrow) hdead)
    (fun envelope henv _ => hkeeps.envelopes envelope henv) hrest.1
    (latestEffect_congr hrest.2.1) (latestReplay_congr hrest.2.2)

/-- A call that changes effects only, and not the one of the job that changed last. -/
theorem replayState_effect (hinv : EnvelopeInv db) (hletters : LettersMatch db)
    (hrow : db.jobs.lookup JobRow.jobId jobId = some row) (hdead : row.status = .dead)
    {now : Instant} {call : EffectCall}
    (heffect : latestEffect jobId ((controlMachine env).next db (now, .effect call)) =
      latestEffect jobId db) :
    replayState jobId ((controlMachine env).next db (now, .effect call)) = replayState jobId db ∧
      jobDead jobId ((controlMachine env).next db (now, .effect call)) = true := by
  have hrest : ∃ effects, (controlMachine env).next db (now, .effect call) = { db with effects } := by
    cases call with
    | claim effect =>
      obtain ⟨effects, heq, -⟩ := lookup_claimEffect .postgres now effect db
      exact ⟨effects, congrArg Prod.fst heq⟩
    | finish effectKey result => exact ⟨_, rfl⟩
  obtain ⟨effects, heq⟩ := hrest
  rw [heq] at heffect ⊢
  exact replayState_of_kept hinv hletters hrow hdead (Table.lookup_mem hrow) (fun _ henv _ _ => henv)
    rfl heffect rfl

/-- The message of another job's replay. -/
theorem replayState_published (hinv : EnvelopeInv db) (hletters : LettersMatch db)
    (hrow : db.jobs.lookup JobRow.jobId jobId = some row) (hdead : row.status = .dead)
    {now : Instant} {replayed envelopeJobId : String} {input : ReplayInput} {job : QueueJob}
    (published : Published env now replayed input db db' job envelopeJobId)
    (hother : jobId ≠ replayed) :
    replayState jobId db' = replayState jobId db ∧ jobDead jobId db' = true := by
  have hinserted := (Table.insert?_eq_some published.operations).1
  obtain ⟨rfl, -⟩ := hinv.openEnvelope published.opened
  have hid : row.jobId = jobId := Table.lookup_key hrow
  refine replayState_of_kept hinv hletters hrow hdead ?_ (fun envelope henv henvId _ => ?_) ?_
    (latestEffect_congr published.effects) ?_
  · rw [published.jobs]
    refine Table.mem_update_of_not (Table.lookup_mem hrow) ?_
    simp [hid, hother]
  · rw [published.envelopes]
    refine Table.mem_update_of_not henv ?_
    simp [henvId, hother]
  · rw [published.deadLetters]
  · unfold latestReplay
    rw [hinserted, List.filter_append]
    simp [Postgres.replayOperation, hother.symm]

/-- **A call that does not move the state of a dead job leaves it as it is.** -/
theorem replayState_next (hinv : EnvelopeInv db) (hletters : LettersMatch db)
    (hdead : jobDead jobId db = true) {input : Instant × ControlCall}
    (hstill : moves env jobId db input = false) :
    replayState jobId ((controlMachine env).next db input) = replayState jobId db ∧
      jobDead jobId ((controlMachine env).next db input) = true := by
  obtain ⟨row, hrow, hs⟩ := jobDead_iff.mp hdead
  obtain ⟨now, call⟩ := input
  cases call with
  | job call =>
    cases call with
    | claim iv body => exact replayState_claim hinv hletters hrow hs now iv body
    | finish finished result => exact replayState_finish hinv hletters hrow hs now finished result
  | effect call =>
    exact replayState_effect hinv hletters hrow hs (by simpa [moves] using hstill)
  | replay replayed replayInput =>
    have houtcome := replayDeadLetter_outcome env now replayed replayInput db
    have hsame : replayed = jobId →
        (transact db (Postgres.replayDeadLetter env now replayed replayInput db)).1.replayOperations =
          db.replayOperations := by
      rintro rfl
      have hnext : ((controlMachine env).next db (now, .replay replayed replayInput)).replayOperations =
          db.replayOperations := by simpa [moves] using hstill
      exact hnext
    show replayState jobId (transact db (Postgres.replayDeadLetter env now replayed replayInput db)).1 =
      replayState jobId db ∧ jobDead jobId
        (transact db (Postgres.replayDeadLetter env now replayed replayInput db)).1 = true
    generalize transact db (Postgres.replayDeadLetter env now replayed replayInput db) = reply
      at houtcome hsame
    cases houtcome with
    | unchanged => exact ⟨rfl, hdead⟩
    | published published =>
      refine replayState_published hinv hletters hrow hs published fun hself => ?_
      -- A replay of the job itself would have recorded an operation.
      have hrows := congrArg (fun t => t.rows.length) (hsame hself.symm)
      simp [(Table.insert?_eq_some published.operations).1] at hrows

end Moves

/-! ## A request among other calls -/

/-- A request of `replays/execute`, and the database that it shares with other calls. -/
structure RouteRun where
  db : Db
  prog : ExecuteProgram
  /-- Something of the job has moved since the plan was made, or the job was not dead then. -/
  moved : Bool
  /-- The state of the job in which the request has inserted a message. -/
  inserted : Option (Option ReplayStateRow)

/-- The request makes its next call, or another call is made. -/
inductive RouteInput where
  | request (now : Instant)
  | other (now : Instant) (call : ControlCall)

/-- A call of the request. -/
def RouteRun.advance (env : Env) (body : ReplayExecute) (now : Instant) (w : RouteRun) : RouteRun :=
  match w.prog with
  | .ret _ => w
  | .call (.replayDeadLetter jobId input) k =>
    let (db', reply) := serveRoute env now w.db (.replayDeadLetter jobId input)
    { db := db'
      prog := k reply
      moved := w.moved
      inserted :=
        if db'.inbox = w.db.inbox then w.inserted else some (replayState body.jobId w.db) }
  | .call (.createReplayPlan idempotencyKey jobId validation) k =>
    let (db', plan) := serveRoute env now w.db (.createReplayPlan idempotencyKey jobId validation)
    { w with db := db', prog := k plan, moved := !jobDead body.jobId w.db }

def routeMachine (env : Env) (body : ReplayExecute) : Machine RouteRun RouteInput Unit where
  step
    | w, .request now => (w.advance env body now, ())
    | w, .other now call =>
      ({ w with
          db := (controlMachine env).next w.db (now, call)
          moved := w.moved || moves env body.jobId w.db (now, call) }, ())

/-- The request before its first call, on empty tables. -/
def RouteRun.start (body : ReplayExecute) : RouteRun where
  db := ∅
  prog := executeReplay body
  moved := false
  inserted := none

/-- If the request inserts its message now, nothing of the job has moved since its plan. -/
def RouteRun.Still (env : Env) (body : ReplayExecute) (w : RouteRun) : RouteInput → Prop
  | .request now => (w.advance env body now).db.inbox ≠ w.db.inbox → w.moved = false
  | .other .. => True

instance (env : Env) (body : ReplayExecute) (w : RouteRun) (a : RouteInput) :
    Decidable (w.Still env body a) := by
  cases a with
  | request now => exact inferInstanceAs (Decidable (_ → _))
  | other => exact inferInstanceAs (Decidable True)

/-- The state is the one that the submitted hash was made of. -/
def Approved (env : Env) (body : ReplayExecute) (state : Option ReplayStateRow) : Prop :=
  ∀ idempotencyKey jobId approved validation,
    planHash env idempotencyKey jobId approved validation = body.planHash → state = approved

/-- Where the request is. -/
inductive RouteStage (env : Env) (body : ReplayExecute) (w : RouteRun) : Prop where
  | started (h : w.prog = executeReplay body)
  | validated (validation : ReplayReply)
      (h : w.prog = .call (.createReplayPlan body.idempotencyKey body.jobId validation)
        (executePlan body))
  | planned (h : w.prog = .call (.replayDeadLetter body.jobId ⟨false, body.idempotencyKey⟩)
        (answerReplay body))
      (still : w.moved = false →
        jobDead body.jobId w.db = true ∧ Approved env body (replayState body.jobId w.db))
  | answered (reply : Except ErrorText ExecuteReply) (h : w.prog = .ret reply)

/-- What holds in every run in which nothing moves between the plan and the message. -/
structure RouteInv (env : Env) (body : ReplayExecute) (w : RouteRun) : Prop where
  envelopes : EnvelopeInv w.db
  letters : LettersMatch w.db
  stage : RouteStage env body w
  inserted : ∀ state, w.inserted = some state → Approved env body state

section Route

variable {env : Env} {body : ReplayExecute} {w : RouteRun}

theorem routeInv_start : RouteInv env body (.start body) where
  envelopes := envelopeInv_empty
  letters _ h := absurd h Table.not_mem_empty
  stage := .started rfl
  inserted _ h := by cases h

theorem RouteInv.other (h : RouteInv env body w) (now : Instant) (call : ControlCall) :
    RouteInv env body ((routeMachine env body).next w (.other now call)) where
  envelopes := envelopeInv_next h.envelopes
  letters := lettersMatch_next h.envelopes h.letters _
  stage := by
    cases h.stage with
    | started hprog => exact .started hprog
    | validated validation hprog => exact .validated validation hprog
    | answered reply hprog => exact .answered reply hprog
    | planned hprog still =>
      refine .planned hprog fun hmoved => ?_
      obtain ⟨hbefore, hstill⟩ := Bool.or_eq_false_iff.mp hmoved
      obtain ⟨hdead, happroved⟩ := still hbefore
      obtain ⟨hsame, hdead'⟩ := replayState_next h.envelopes h.letters hdead hstill
      refine ⟨hdead', ?_⟩
      show Approved env body (replayState body.jobId ((controlMachine env).next w.db (now, call)))
      rw [hsame]
      exact happroved
  inserted := h.inserted

/-- The call that the route makes to the control plane is one of those that others make. -/
theorem serveRoute_replay (now : Instant) (db : Db) (jobId : String) (input : ReplayInput) :
    (serveRoute env now db (.replayDeadLetter jobId input)).1 =
      (controlMachine env).next db (now, .replay jobId input) := rfl

/-- A dry run inserts no message. -/
theorem inbox_dryRun (now : Instant) (db : Db) (jobId idempotencyKey : String) :
    (serveRoute env now db (.replayDeadLetter jobId ⟨true, idempotencyKey⟩)).1.inbox = db.inbox := by
  have houtcome := replayDeadLetter_outcome env now jobId ⟨true, idempotencyKey⟩ db
  show (transact db (Postgres.replayDeadLetter env now jobId ⟨true, idempotencyKey⟩ db)).1.inbox = _
  generalize transact db (Postgres.replayDeadLetter env now jobId ⟨true, idempotencyKey⟩ db) = reply
    at houtcome
  cases houtcome with
  | unchanged => rfl
  | published published => cases published.wet

/-- The first call of a request is a dry run. -/
theorem RouteInv.validate (h : RouteInv env body w) {now : Instant}
    (hprog : w.prog = executeReplay body) : RouteInv env body (w.advance env body now) := by
  have hadvance : w.advance env body now =
      { db := (controlMachine env).next w.db (now, .replay body.jobId ⟨true, body.idempotencyKey⟩)
        prog := planReplay body (serveRoute env now w.db
          (.replayDeadLetter body.jobId ⟨true, body.idempotencyKey⟩)).2
        moved := w.moved
        inserted := w.inserted } := by
    simp only [RouteRun.advance, hprog, executeReplay, inbox_dryRun, if_true]
    rfl
  rw [hadvance]
  refine ⟨envelopeInv_next h.envelopes, lettersMatch_next h.envelopes h.letters _, ?_, h.inserted⟩
  cases hreply : (serveRoute env now w.db
      (.replayDeadLetter body.jobId ⟨true, body.idempotencyKey⟩)).2 with
  | error text => exact .answered _ rfl
  | ok validation => exact .validated validation rfl

/-- The second one makes the plan; only a plan with the submitted hash is executed. -/
theorem RouteInv.plan (hcollide : env.CollisionFree) (h : RouteInv env body w) {now : Instant}
    {validation : ReplayReply}
    (hprog : w.prog = .call (.createReplayPlan body.idempotencyKey body.jobId validation)
      (executePlan body)) : RouteInv env body (w.advance env body now) := by
  have hadvance : w.advance env body now =
      { w with
        prog := executePlan body
          (Postgres.createReplayPlan env body.idempotencyKey body.jobId validation w.db)
        moved := !jobDead body.jobId w.db } := by
    simp only [RouteRun.advance, hprog]
    rfl
  rw [hadvance]
  refine ⟨h.envelopes, h.letters, ?_, h.inserted⟩
  by_cases hhash : (Postgres.createReplayPlan env body.idempotencyKey body.jobId validation
      w.db).planHash = body.planHash
  · by_cases hreplayable : validation.replayable = true
    · refine .planned ?_ fun hmoved => ⟨by simpa using hmoved, ?_⟩
      · simp only [executePlan, hhash, ne_eq, not_true_eq_false, if_false]
        simp [Postgres.createReplayPlan, hreplayable]
      · intro idempotencyKey jobId approved validation' happroved
        exact planHash_inj hcollide (hhash.trans happroved.symm)
    · refine .answered (.ok (.conflict validation.reason)) ?_
      simp only [executePlan, hhash, ne_eq, not_true_eq_false, if_false]
      simp [Postgres.createReplayPlan, hreplayable]
  · exact .answered _ (if_pos hhash)

/-- The third one inserts the message, in the approved state if nothing has moved since the plan. -/
theorem RouteInv.publish (h : RouteInv env body w) {now : Instant}
    (hprog : w.prog = .call (.replayDeadLetter body.jobId ⟨false, body.idempotencyKey⟩)
      (answerReplay body))
    (happroved : (w.advance env body now).db.inbox ≠ w.db.inbox →
      Approved env body (replayState body.jobId w.db)) :
    RouteInv env body (w.advance env body now) := by
  have hadvance : w.advance env body now =
      { db := (controlMachine env).next w.db (now, .replay body.jobId ⟨false, body.idempotencyKey⟩)
        prog := answerReplay body (serveRoute env now w.db
          (.replayDeadLetter body.jobId ⟨false, body.idempotencyKey⟩)).2
        moved := w.moved
        inserted :=
          if ((controlMachine env).next w.db
              (now, .replay body.jobId ⟨false, body.idempotencyKey⟩)).inbox = w.db.inbox then
            w.inserted
          else some (replayState body.jobId w.db) } := by
    simp only [RouteRun.advance, hprog]
    rfl
  rw [hadvance] at happroved ⊢
  refine ⟨envelopeInv_next h.envelopes, lettersMatch_next h.envelopes h.letters _, ?_, ?_⟩
  · cases hreply : (serveRoute env now w.db
        (.replayDeadLetter body.jobId ⟨false, body.idempotencyKey⟩)).2 with
    | error text => exact .answered _ rfl
    | ok result => exact .answered _ rfl
  · intro state hstate
    dsimp only at hstate
    split at hstate
    · exact h.inserted state hstate
    · next hinbox =>
      rw [← Option.some.inj hstate]
      exact happroved hinbox

theorem RouteInv.request (hcollide : env.CollisionFree) (h : RouteInv env body w) {now : Instant}
    (hstill : w.Still env body (.request now)) :
    RouteInv env body ((routeMachine env body).next w (.request now)) := by
  show RouteInv env body (w.advance env body now)
  cases h.stage with
  | started hprog => exact h.validate hprog
  | validated validation hprog => exact h.plan hcollide hprog
  | planned hprog still => exact h.publish hprog fun hinbox => (still (hstill hinbox)).2
  | answered reply hprog =>
    have hadvance : w.advance env body now = w := by
      simp only [RouteRun.advance, hprog]
    rw [hadvance]
    exact h

end Route

/--
**A message is inserted in the state that was approved, as long as nothing of the job moves between
the plan and the message**: the job is dead when the plan is made, and until the message no other
replay of it is published and no effect of it changes last.
-/
theorem executes_approved_plan (env : Env) (hcollide : env.CollisionFree) (body : ReplayExecute)
    (steps : List RouteInput)
    (hstill : (routeMachine env body).Admits (RouteRun.Still env body) (.start body) steps)
    (state : Option ReplayStateRow)
    (hinserted : ((routeMachine env body).run (.start body) steps).inserted = some state) :
    Approved env body state := by
  have hinv : RouteInv env body ((routeMachine env body).run (.start body) steps) :=
    Machine.run_invariant (fun w a h ha => by
      cases a with
      | request now => exact h.request hcollide ha
      | other now call => exact h.other now call) routeInv_start hstill
  exact hinv.inserted state hinserted

/-! ## A plan that is out of date -/

namespace DeadSince

/-- The state that is approved: the article has died, and was never replayed. -/
def approved : ReplayStateRow where
  jobStatus := .dead
  jobUpdatedAt := 1000
  deadLetterCreatedAt := some 1000
  envelopeJobId := some Sample.firstId
  envelopeStatus := some .dead
  envelopeUpdatedAt := some 1000
  effectUpdatedAt := none
  replayUpdatedAt := none

/-- The texts that the runs hash besides those of the sample, with their digests. -/
def planText : String :=
  (canonicalPlan Sample.replayKey Sample.firstId (some approved) Postgres.validatedReply).stringify

def planDigest : String := "b35530af125819a7768031dbc00bfc1767ef9cfef21524f123f9f96826732ac7"

def otherText : String := joinNul Sample.firstId "replay-2"

def otherDigest : String := "3920f1e1d55ab38e58e0df94f0bb7c1f09b05c5ad963d9a00605d568f54e703c"

def env : Env :=
  { Sample.env with
    sha256Hex := fun text =>
      Equiv.swap planText planDigest (Equiv.swap otherText otherDigest (Sample.sha256Hex text)) }

theorem env_collisionFree : env.CollisionFree :=
  ((Equiv.swap planText planDigest).injective.comp
    (Equiv.swap otherText otherDigest).injective).comp Sample.sha256Hex_injective

def body : ReplayExecute where
  idempotencyKey := Sample.replayKey
  jobId := Sample.firstId
  planHash := planDigest

def claim : ControlCall := .job (.claim Sample.iv (Sample.articleJob Sample.firstId).toJson)

def die : ControlCall := .job (.finish Sample.firstId (.failed (some .permanent) none (some "digest")))

/-- The article has died, and nothing else happens. -/
def inTurn : List RouteInput :=
  [.other 0 claim, .other 1000 die, .request 2000, .request 2001, .request 2002]

/-- Between its plan and its replay the article is replayed by another request, and dies again. -/
def replayedBetween : List RouteInput :=
  [.other 0 claim, .other 1000 die, .request 2000, .request 2001,
    .other 2002 (.replay Sample.firstId ⟨false, "replay-2"⟩), .other 3000 claim, .other 4000 die,
    .request 5000]

/-- The request after the steps. -/
def after (steps : List RouteInput) : RouteRun := (routeMachine env body).run (.start body) steps

theorem executes_approved_plan_inTurn :
    ∃ state, (after inTurn).inserted = some state ∧ Approved env body state := by
  have hinserted : (after inTurn).inserted.isSome = true := by decide +kernel
  obtain ⟨state, hstate⟩ := Option.isSome_iff_exists.mp hinserted
  refine ⟨state, hstate, ?_⟩
  exact executes_approved_plan env env_collisionFree body inTurn (by decide +kernel) state hstate

theorem executes_other_plan :
    planHash env Sample.replayKey Sample.firstId (some approved) Postgres.validatedReply =
      body.planHash ∧
    ∃ state, (after replayedBetween).inserted = some state ∧ state ≠ some approved ∧
      ¬ Approved env body state := by
  have hhash : planHash env Sample.replayKey Sample.firstId (some approved)
      Postgres.validatedReply = body.planHash := by decide +kernel
  have hinserted : (after replayedBetween).inserted =
      some (some { approved with
        jobUpdatedAt := 4000, deadLetterCreatedAt := some 4000, envelopeUpdatedAt := some 4000
        replayUpdatedAt := some 2002 }) := by decide +kernel
  refine ⟨hhash, _, hinserted, by decide, fun h => ?_⟩
  have hsame := h Sample.replayKey Sample.firstId (some approved) Postgres.validatedReply hhash
  revert hsame
  decide

end DeadSince

end InboxServer
