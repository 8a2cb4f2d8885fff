import InboxServer.Infra.Contract
import InboxServer.Api.Postgres.QueueStore
import InboxServer.Properties.Envelopes
import InboxServer.Properties.Leases
import InboxServer.Properties.Sample

/-!
# No staged work is lost

Any number of workers, each with the batch that it pulled, and beside them whoever stages messages
and replays dead letters; a call may fail with its transaction or without, and a worker that takes no
further step has crashed. A note keeps what a worker knows: the leases of its batch, the keys whose
jobs it has seen ended, and the messages that it has rejected.

* `meets_processNextBatch` — a worker acknowledges a lease only if it knows that its work has ended
* `WorkInv` — a job that goes on has a message that no worker may acknowledge
* `staged_work_kept` — so no staged work is lost, over any run
-/

namespace InboxServer

open Infra Postgres

/-! ## Messages and notes -/

/-- A body that is a job has the key that belongs to its job id. -/
def Keyed (env : Env) (keyOf : String → String) (body : Json) : Prop :=
  ∀ job, parseQueueJob env.zod body = some job → keyOf job.jobId = job.dedupeKey

/-- The body of a message is a job with the key. -/
def Carries (env : Env) (key : String) (message : InboxRow) : Prop :=
  ∃ job, parseQueueJob env.zod message.body = some job ∧ job.dedupeKey = key

/-- What a worker knows. -/
structure QueueNote where
  held : List InboxLease
  ended : List String
  rejected : List String

/-- The note of a worker that has not begun. -/
def QueueNote.empty : QueueNote := ⟨[], [], []⟩

/-- The keys whose jobs are done, dead or uncertain. -/
def endedKeys (db : Db) : List String :=
  (db.jobs.rows.filter fun row => row.status.isTerminal).map JobRow.dedupeKey

theorem mem_endedKeys {key : String} {db : Db} :
    key ∈ endedKeys db ↔
      ∃ row ∈ db.jobs, row.status.isTerminal = true ∧ row.dedupeKey = key := by
  simp only [endedKeys, List.mem_map, List.mem_filter, Table.mem_rows, and_assoc]

/-- A note moves with a call, its answer, and the database after it. -/
def QueueNote.next (note : QueueNote) (_ : Db) (call : QueueCall) (answer : call.Answer)
    (after : Db) : QueueNote where
  held :=
    match call, answer with
    | .pull _, .ok batch => batch.messages
    | _, _ => note.held
  ended := note.ended ++ endedKeys after
  rejected :=
    match call, answer with
    | .rejectInvalidJob input, .ok () => note.rejected ++ [input.messageId]
    | _, _ => note.rejected

/-- The note knows no less, of the same leases. -/
structure QueueNote.Extends (note note' : QueueNote) : Prop where
  held : note'.held = note.held
  ended : ∀ key ∈ note.ended, key ∈ note'.ended
  rejected : ∀ id ∈ note.rejected, id ∈ note'.rejected

theorem QueueNote.Extends.refl (note : QueueNote) : note.Extends note := ⟨rfl, fun _ h => h, fun _ h => h⟩

theorem QueueNote.Extends.trans {a b c : QueueNote} (hab : a.Extends b) (hbc : b.Extends c) :
    a.Extends c where
  held := hbc.held.trans hab.held
  ended key h := hbc.ended key (hab.ended key h)
  rejected id h := hbc.rejected id (hab.rejected id h)

/-- The work of a lease has ended, as far as the note knows. -/
def QueueNote.Spent (env : Env) (note : QueueNote) (leaseId : String) : Prop :=
  ∃ lease ∈ note.held, lease.leaseId = leaseId ∧
    (∀ job, parseQueueJob env.zod lease.body = some job → job.dedupeKey ∈ note.ended) ∧
    (parseQueueJob env.zod lease.body = none → lease.id ∈ note.rejected)

theorem QueueNote.Extends.spent {env : Env} {note note' : QueueNote} (h : note.Extends note')
    {leaseId : String} (hspent : note.Spent env leaseId) : note'.Spent env leaseId := by
  obtain ⟨lease, hheld, hid, hjob, hinvalid⟩ := hspent
  exact ⟨lease, h.held ▸ hheld, hid, fun job hparse => h.ended _ (hjob job hparse),
    fun hparse => h.rejected _ (hinvalid hparse)⟩

/-! ## The contract of a worker -/

section Worker

variable (env : Env) (keyOf : String → String)

/-- Only what a worker holds is claimed, and only what has ended is acknowledged. -/
def queueContract : Contract QueueCall QueueCall.Answer QueueNote where
  asks note
    | .pull _ => note = .empty
    | .claimJob job => ∃ lease ∈ note.held, parseQueueJob env.zod lease.body = some job
    | .settle settlement => ∀ leaseId ∈ settlement.acks, note.Spent env leaseId
    | _ => True
  learns note call answer note' :=
    match call, answer with
    | .pull _, .ok batch =>
      note'.held = batch.messages ∧ ∀ lease ∈ batch.messages, Keyed env keyOf lease.body
    | .claimJob job, answer =>
      note.Extends note' ∧ (answer = .ok .duplicate → job.dedupeKey ∈ note'.ended)
    | .finishJob jobId _, answer =>
      note.Extends note' ∧ (answer = .ok .ack → keyOf jobId ∈ note'.ended)
    | .rejectInvalidJob input, answer =>
      note.Extends note' ∧ (answer = .ok () → input.messageId ∈ note'.rejected)
    | _, _ => note.Extends note'

variable {env keyOf} {lease : InboxLease} {job : QueueJob} {note : QueueNote}

/-- The work on a lease ends with more known, and with an ack only where its work has ended. -/
def LeaseDone (env : Env) (lease : InboxLease) (before after : QueueNote)
    (result : Except Thrown Settlement) : Prop :=
  before.Extends after ∧ (result = .ok .ack → after.Spent env lease.leaseId)

theorem LeaseDone.of_extends {before mid after : QueueNote} {result : Except Thrown Settlement}
    (h : before.Extends mid) (hdone : LeaseDone env lease mid after result) :
    LeaseDone env lease before after result := ⟨h.trans hdone.1, hdone.2⟩

/-- An ack is right where the key of the lease's job is known to have ended. -/
theorem leaseDone_ended {before : QueueNote} {result : Except Thrown Settlement}
    (hextends : before.Extends note) (hheld : lease ∈ note.held)
    (hparse : parseQueueJob env.zod lease.body = some job)
    (hended : result = .ok .ack → job.dedupeKey ∈ note.ended) :
    LeaseDone env lease before note result := by
  refine ⟨hextends, fun hack => ⟨lease, hheld, rfl, fun job' hparse' => ?_, fun hnone => ?_⟩⟩
  · rw [← Option.some.inj (hparse.symm.trans hparse')]
    exact hended hack
  · rw [hparse] at hnone
    cases hnone

section Job

variable (hheld : lease ∈ note.held) (hparse : parseQueueJob env.zod lease.body = some job)
  (hkeyed : Keyed env keyOf lease.body)

include hheld hparse hkeyed

theorem meets_finishFailed (error : Thrown) :
    (finishFailed env lease job error).Meets (queueContract env keyOf) (LeaseDone env lease note)
      note := by
  refine ⟨trivial, ?_⟩
  rintro answer note' ⟨hextends, hack⟩
  rw [hkeyed job hparse] at hack
  exact leaseDone_ended hextends (hextends.held ▸ hheld) hparse hack

/-- A lease whose job is claimed is done with once the job is finished. -/
theorem meets_handleClaimed :
    (handleClaimed env lease job).Meets (queueContract env keyOf) (LeaseDone env lease note)
      note := by
  refine ⟨trivial, fun handled note' (hhandle : note.Extends note') => ?_⟩
  have hheld' : lease ∈ note'.held := hhandle.held ▸ hheld
  have hfailed := fun error => (meets_finishFailed hheld' hparse hkeyed error).mono
    fun _ _ => LeaseDone.of_extends hhandle
  cases handled with
  | error error => exact hfailed error
  | ok handled =>
    refine ⟨trivial, ?_⟩
    rintro answer note'' ⟨hextends, hack⟩
    have hheld'' : lease ∈ note''.held := hextends.held ▸ hheld'
    cases answer with
    | error error =>
      exact (meets_finishFailed hheld'' hparse hkeyed error).mono
        fun _ _ => LeaseDone.of_extends (hhandle.trans hextends)
    | ok settlement =>
      rw [hkeyed job hparse] at hack
      exact leaseDone_ended (hhandle.trans hextends) hheld'' hparse hack

/-- A lease is done with once its job is claimed and handled. -/
theorem meets_claimAndHandle :
    (claimAndHandle env lease job).Meets (queueContract env keyOf) (LeaseDone env lease note)
      note := by
  refine ⟨⟨lease, hheld, hparse⟩, ?_⟩
  rintro answer note' ⟨hextends, hduplicate⟩
  have hheld' : lease ∈ note'.held := hextends.held ▸ hheld
  rcases answer with error | ⟨attempts | _ | _ | ⟨reason, retryAt⟩⟩
  · exact ⟨hextends, (fun h => by cases h)⟩
  · exact (meets_handleClaimed hheld' hparse hkeyed).mono fun _ _ => LeaseDone.of_extends hextends
  · exact ⟨hextends, (fun h => by cases h)⟩
  · exact leaseDone_ended hextends hheld' hparse fun _ => hduplicate rfl
  · exact ⟨trivial, fun current note'' (hnow : note'.Extends note'') =>
      ⟨hextends.trans hnow, (fun h => by cases h)⟩⟩

end Job

/-- A lease is done with, or is handed back. -/
theorem meets_processLease (hheld : lease ∈ note.held) (hkeyed : Keyed env keyOf lease.body) :
    (processLease env lease).Meets (queueContract env keyOf) (LeaseDone env lease note) note := by
  unfold processLease
  split
  · next hparse =>
    refine ⟨trivial, ?_⟩
    rintro answer note' ⟨hextends, hrejected⟩
    cases answer with
    | error error => exact ⟨hextends, (fun h => by cases h)⟩
    | ok u =>
      refine ⟨hextends, fun _ => ⟨lease, hextends.held ▸ hheld, rfl, fun job hjob => ?_,
        fun _ => hrejected rfl⟩⟩
      rw [hparse] at hjob
      cases hjob
  · next job hparse =>
    refine ⟨trivial, fun acceptance note' (hextends : note.Extends note') => ?_⟩
    cases acceptance with
    | defer seconds => exact ⟨hextends, (fun h => by cases h)⟩
    | accept =>
      exact (meets_claimAndHandle (hextends.held ▸ hheld) hparse hkeyed).mono
        fun _ _ => LeaseDone.of_extends hextends

/-- The loop, where all of the acks so far are right. -/
theorem meets_processLeases (leases : List InboxLease) (settlement : QueueSettlement)
    (hheld : ∀ lease ∈ leases, lease ∈ note.held)
    (hkeyed : ∀ lease ∈ leases, Keyed env keyOf lease.body)
    (hacks : ∀ leaseId ∈ settlement.acks, note.Spent env leaseId) :
    (processLeases env leases settlement).Meets (queueContract env keyOf) (fun _ _ => True)
      note := by
  induction leases generalizing note settlement with
  | nil => exact ⟨hacks, fun _ _ _ => trivial⟩
  | cons lease leases ih =>
    refine Prog.Meets.bind ((meets_processLease (hheld lease List.mem_cons_self)
      (hkeyed lease List.mem_cons_self)).mono ?_)
    rintro note' result ⟨hextends, hack⟩
    cases result with
    | error error => exact trivial
    | ok result =>
      refine ih _ (fun l hl => hextends.held ▸ hheld l (List.mem_cons_of_mem _ hl))
        (fun l hl => hkeyed l (List.mem_cons_of_mem _ hl)) fun leaseId hleaseId => ?_
      cases result with
      | retry delaySeconds => exact hextends.spent (hacks leaseId hleaseId)
      | ack =>
        rcases List.mem_append.mp hleaseId with hold | hnew
        · exact hextends.spent (hacks leaseId hold)
        · rw [List.mem_singleton.mp hnew]
          exact hack rfl

/-- **A worker acknowledges a lease only if it knows that its work has ended.** -/
theorem meets_processNextBatch (input : PullInput) :
    (processNextBatch env input).Meets (queueContract env keyOf) (fun _ _ => True) .empty := by
  refine ⟨rfl, fun answer note' hlearns => ?_⟩
  cases answer with
  | error error => exact trivial
  | ok batch =>
    obtain ⟨hheld, hkeyed⟩ := hlearns
    exact meets_processLeases batch.messages ⟨[], []⟩ (fun lease h => hheld ▸ h) hkeyed
      (fun _ h => by cases h)

end Worker

/-! ## What every step keeps -/

section Invariant

variable {ι : Type*} (env : Env) (keyOf : String → String)

/-- A message carries the key, and no worker that holds its lease knows that the job has ended. -/
def Waiting (inbox : Table InboxRow) (notes : ι → QueueNote) (key : String) : Prop :=
  ∃ message ∈ inbox, Carries env key message ∧
    ∀ i, ∀ lease ∈ (notes i).held, message.leaseId = some lease.leaseId → key ∉ (notes i).ended

/-- What holds of the tables and of all that the workers know. -/
structure WorkInv (db : Db) (notes : ι → QueueNote) : Prop where
  keyed : ∀ row ∈ db.jobs, keyOf row.jobId = row.dedupeKey
  sealed : ∀ envelope ∈ db.envelopes, ∀ value, env.decryptJson envelope.ciphertext = some value →
    Keyed env keyOf value
  bodies : ∀ message ∈ db.inbox, Keyed env keyOf message.body
  heldKeyed : ∀ i, ∀ lease ∈ (notes i).held, Keyed env keyOf lease.body
  held : ∀ i, ∀ lease ∈ (notes i).held, ∀ message ∈ db.inbox,
    message.leaseId = some lease.leaseId →
      message.messageId = lease.id ∧ message.body = lease.body
  known : ∀ i, ∀ key ∈ (notes i).ended, ∃ row ∈ db.jobs, row.dedupeKey = key
  unclaimed : ∀ i, ∀ lease ∈ (notes i).held, ∀ job,
    parseQueueJob env.zod lease.body = some job →
      (∃ row ∈ db.jobs, row.dedupeKey = job.dedupeKey) ∨ ∃ message ∈ db.inbox, message.body = lease.body
  rejected : ∀ i, ∀ id ∈ (notes i).rejected, ∃ letter ∈ db.deadLetters, letter.jobId = id
  staged : ∀ row ∈ db.jobs, row.status.isTerminal = false →
    Waiting env db.inbox notes row.dedupeKey

/-- Nothing is staged on the empty tables. -/
theorem workInv_empty : WorkInv env keyOf ∅ fun _ : ι => QueueNote.empty where
  keyed _ h := absurd h Table.not_mem_empty
  sealed _ h := absurd h Table.not_mem_empty
  bodies _ h := absurd h Table.not_mem_empty
  heldKeyed _ _ h := by cases h
  held _ _ h := by cases h
  known _ _ h := by cases h
  unclaimed _ _ h := by cases h
  rejected _ _ h := by cases h
  staged _ h := absurd h Table.not_mem_empty

/-- A message stays, with its lease or without one. -/
structure Carried (message message' : InboxRow) : Prop where
  messageId : message'.messageId = message.messageId
  body : message'.body = message.body
  leaseId : message'.leaseId = none ∨ message'.leaseId = message.leaseId

theorem Carried.refl (message : InboxRow) : Carried message message := ⟨rfl, rfl, Or.inr rfl⟩

/-- A change of the inbox: new messages have no lease, and only spent leases take messages along. -/
structure InboxKept (notes : ι → QueueNote) (before after : Table InboxRow) : Prop where
  came : ∀ message' ∈ after, (∃ message ∈ before, Carried message message') ∨
    (Keyed env keyOf message'.body ∧ message'.leaseId = none)
  gone : ∀ message ∈ before, (∃ message' ∈ after, Carried message message') ∨
    ∃ i leaseId, (notes i).Spent env leaseId ∧ message.leaseId = some leaseId

theorem InboxKept.refl (notes : ι → QueueNote) (inbox : Table InboxRow) :
    InboxKept env keyOf notes inbox inbox where
  came message h := Or.inl ⟨message, h, .refl message⟩
  gone message h := Or.inl ⟨message, h, .refl message⟩

/-- A change of the jobs: none is lost, and one that goes on has gone on before, or has a message. -/
structure JobsKept (notes : ι → QueueNote) (before after : Db) : Prop where
  keyed : ∀ row ∈ after.jobs, keyOf row.jobId = row.dedupeKey
  kept : ∀ row ∈ before.jobs, ∃ row' ∈ after.jobs, row'.dedupeKey = row.dedupeKey
  live : ∀ row' ∈ after.jobs, row'.status.isTerminal = false →
    (∃ row ∈ before.jobs, row.dedupeKey = row'.dedupeKey ∧ row.status.isTerminal = false) ∨
      Waiting env after.inbox notes row'.dedupeKey

variable {env keyOf} {db db' : Db} {notes : ι → QueueNote}

theorem JobsKept.of_eq (h : WorkInv env keyOf db notes) (hjobs : db'.jobs = db.jobs) :
    JobsKept env keyOf notes db db' where
  keyed row hrow := h.keyed row (hjobs ▸ hrow)
  kept row hrow := ⟨row, hjobs ▸ hrow, rfl⟩
  live row hrow hlive := Or.inl ⟨row, hjobs ▸ hrow, rfl, hlive⟩

/-- A message that waits is not taken along by a spent lease. -/
theorem WorkInv.waiting_kept (h : WorkInv env keyOf db notes)
    (hinbox : InboxKept env keyOf notes db.inbox db'.inbox) {key : String}
    (hwaiting : Waiting env db.inbox notes key) : Waiting env db'.inbox notes key := by
  obtain ⟨message, hmessage, ⟨job, hparse, rfl⟩, hnone⟩ := hwaiting
  rcases hinbox.gone message hmessage with ⟨message', hmessage', hcarried⟩ | ⟨i, leaseId, hspent, hid⟩
  · refine ⟨message', hmessage', ⟨job, by rw [hcarried.body, hparse], rfl⟩, ?_⟩
    intro i lease hlease hid
    rcases hcarried.leaseId with hfree | hsame
    · rw [hfree] at hid
      cases hid
    · exact hnone i lease hlease (hsame ▸ hid)
  · obtain ⟨lease, hlease, rfl, hended, -⟩ := hspent
    obtain ⟨-, hbody⟩ := h.held i lease hlease message hmessage hid
    exact absurd (hended job (hbody ▸ hparse)) (hnone i lease hlease hid)

/-- A step of the tables keeps the invariant, and only spent leases take messages along. -/
structure WorkStep (env : Env) (keyOf : String → String) (notes : ι → QueueNote) (db db' : Db) :
    Prop where
  inv : WorkInv env keyOf db' notes
  messages : ∀ message ∈ db.inbox, (∃ message' ∈ db'.inbox, message'.messageId = message.messageId) ∨
    ∃ i leaseId, (notes i).Spent env leaseId ∧ message.leaseId = some leaseId

theorem WorkInv.still (h : WorkInv env keyOf db notes) : WorkStep env keyOf notes db db where
  inv := h
  messages message hmessage := Or.inl ⟨message, hmessage, rfl⟩

/-- A change of the tables is such a step, as long as nobody learns anything. -/
theorem WorkInv.change (h : WorkInv env keyOf db notes) (hjobs : JobsKept env keyOf notes db db')
    (hinbox : InboxKept env keyOf notes db.inbox db'.inbox)
    (hsealed : ∀ envelope ∈ db'.envelopes, ∀ value,
      env.decryptJson envelope.ciphertext = some value → Keyed env keyOf value)
    (hletters : ∀ letter ∈ db.deadLetters, ∃ letter' ∈ db'.deadLetters,
      letter'.jobId = letter.jobId) : WorkStep env keyOf notes db db' where
  messages message hmessage := (hinbox.gone message hmessage).imp_left
    fun ⟨message', hmessage', hcarried⟩ => ⟨message', hmessage', hcarried.messageId⟩
  inv :=
  { keyed := hjobs.keyed
    sealed := hsealed
    bodies message' hmessage' := by
      rcases hinbox.came message' hmessage' with ⟨message, hmessage, hcarried⟩ | ⟨hkeyed, -⟩
      · exact hcarried.body ▸ h.bodies message hmessage
      · exact hkeyed
    heldKeyed := h.heldKeyed
    held i lease hlease message' hmessage' hid := by
      rcases hinbox.came message' hmessage' with ⟨message, hmessage, hcarried⟩ | ⟨-, hfree⟩
      · rcases hcarried.leaseId with hfree | hsame
        · rw [hfree] at hid
          cases hid
        · rw [hcarried.messageId, hcarried.body]
          exact h.held i lease hlease message hmessage (hsame ▸ hid)
      · rw [hfree] at hid
        cases hid
    known i key hkey := by
      obtain ⟨row, hrow, rfl⟩ := h.known i key hkey
      exact hjobs.kept row hrow
    unclaimed i lease hlease job hparse := by
      rcases h.unclaimed i lease hlease job hparse with ⟨row, hrow, hkey⟩ | ⟨message, hmessage, hbody⟩
      · obtain ⟨row', hrow', hkey'⟩ := hjobs.kept row hrow
        exact Or.inl ⟨row', hrow', hkey'.trans hkey⟩
      · rcases hinbox.gone message hmessage with ⟨message', hmessage', hcarried⟩ | ⟨j, leaseId, hspent, hid⟩
        · exact Or.inr ⟨message', hmessage', hcarried.body.trans hbody⟩
        · -- whoever acknowledges the message has seen a job of its key
          obtain ⟨lease', hlease', rfl, hended, -⟩ := hspent
          obtain ⟨-, hbody'⟩ := h.held j lease' hlease' message hmessage hid
          have hkey := hended job (by rw [← hbody', hbody, hparse])
          obtain ⟨row, hrow, hrowKey⟩ := h.known j _ hkey
          obtain ⟨row', hrow', hkey'⟩ := hjobs.kept row hrow
          exact Or.inl ⟨row', hrow', hkey'.trans hrowKey⟩
    rejected i id hid := by
      obtain ⟨letter, hletter, rfl⟩ := h.rejected i id hid
      exact hletters letter hletter
    staged row' hrow' hlive := by
      rcases hjobs.live row' hrow' hlive with ⟨row, hrow, hkey, hlive'⟩ | hwaiting
      · rw [← hkey]
        exact h.waiting_kept hinbox (h.staged row hrow hlive')
      · exact hwaiting }

/-- A worker that learns of what has ended, and of letters, keeps the invariant. -/
theorem WorkInv.learn [DecidableEq ι] (h : WorkInv env keyOf db notes) {i : ι} {note : QueueNote}
    (hheld : note.held = (notes i).held)
    (hended : ∀ key ∈ note.ended, key ∈ (notes i).ended ∨ key ∈ endedKeys db)
    (hrejected : ∀ id ∈ note.rejected, id ∈ (notes i).rejected ∨
      ∃ letter ∈ db.deadLetters, letter.jobId = id) :
    WorkInv env keyOf db (Function.update notes i note) := by
  have hholds : ∀ j, (Function.update notes i note j).held = (notes j).held :=
    (Function.forall_update_iff notes fun j note => note.held = (notes j).held).mpr
      ⟨hheld, fun _ _ => rfl⟩
  have hends : ∀ j, ∀ key ∈ (Function.update notes i note j).ended,
      key ∈ (notes j).ended ∨ key ∈ endedKeys db :=
    (Function.forall_update_iff notes fun j note => ∀ key ∈ note.ended,
      key ∈ (notes j).ended ∨ key ∈ endedKeys db).mpr ⟨hended, fun _ _ _ hkey => Or.inl hkey⟩
  have hrejects : ∀ j, ∀ id ∈ (Function.update notes i note j).rejected,
      id ∈ (notes j).rejected ∨ ∃ letter ∈ db.deadLetters, letter.jobId = id :=
    (Function.forall_update_iff notes fun j note => ∀ id ∈ note.rejected,
      id ∈ (notes j).rejected ∨ ∃ letter ∈ db.deadLetters, letter.jobId = id).mpr
        ⟨hrejected, fun _ _ _ hid => Or.inl hid⟩
  refine
    { keyed := h.keyed, sealed := h.sealed, bodies := h.bodies
      heldKeyed := fun j lease hlease => h.heldKeyed j lease (hholds j ▸ hlease)
      held := fun j lease hlease => h.held j lease (hholds j ▸ hlease)
      known := fun j key hkey => ?_
      unclaimed := fun j lease hlease => h.unclaimed j lease (hholds j ▸ hlease)
      rejected := fun j id hid => ?_
      staged := fun row hrow hlive => ?_ }
  · rcases hends j key hkey with hold | hnew
    · exact h.known j key hold
    · obtain ⟨row, hrow, -, hrowKey⟩ := mem_endedKeys.mp hnew
      exact ⟨row, hrow, hrowKey⟩
  · rcases hrejects j id hid with hold | hletter
    · exact h.rejected j id hold
    · exact hletter
  · obtain ⟨message, hmessage, hcarries, hnone⟩ := h.staged row hrow hlive
    refine ⟨message, hmessage, hcarries, fun j lease hlease hid hkey => ?_⟩
    rcases hends j _ hkey with hold | hnew
    · exact hnone j lease (hholds j ▸ hlease) hid hold
    · -- a job that goes on has not ended
      obtain ⟨other, hother, hterminal, hsame⟩ := mem_endedKeys.mp hnew
      rw [Table.eq_of_conflict hother hrow (JobRow.isKey_dedupeKey _ _ hsame), hlive] at hterminal
      cases hterminal

end Invariant

/-! ## One transaction -/

/-- What a transaction does on success is all that a call can do, with whatever fault. -/
theorem commit_cases {ρ : Type} {choice : QueueChoice} {db : Db}
    {result : Except ErrorText (ρ × Db)} {P : Db → Prop} (hold : P db)
    (hnew : ∀ reply db', result = .ok (reply, db') → P db') : P (choice.commit db result).1 := by
  rcases result with text | ⟨reply, db'⟩
  · exact hold
  · unfold QueueChoice.commit
    dsimp only
    split
    · exact hnew reply db' rfl
    · split
      · exact hnew reply db' rfl
      · exact hold

/-- A call that returns has committed. -/
theorem commit_ok {ρ : Type} {choice : QueueChoice} {db : Db}
    {result : Except ErrorText (ρ × Db)} {reply : ρ}
    (h : (choice.commit db result).2 = .ok reply) :
    ∃ db', result = .ok (reply, db') ∧ (choice.commit db result).1 = db' := by
  rcases result with text | ⟨reply', db'⟩
  · cases h
  · unfold QueueChoice.commit at h ⊢
    dsimp only at h ⊢
    split at h
    · cases h
      exact ⟨db', rfl, rfl⟩
    · cases h

/-- A settlement is sent with its acks. -/
theorem parseSettlement_acks {settlement : QueueSettlement} {parsed : InboxSettlement}
    (h : parseSettlement settlement = .ok parsed) : parsed.acks = settlement.acks := by
  unfold parseSettlement at h
  split at h
  · cases h
  · rw [← Except.ok.inj h]

section Tables

variable {ι : Type*} {env : Env} {keyOf : String → String} {db db' : Db} {notes : ι → QueueNote}
  {now : Instant}

/-! ### Inbox -/

/-- The inbox is kept as far as the row of each message is. -/
theorem InboxKept.of_rows {before after : Table InboxRow}
    (h : ∀ k, match inboxRow k before, inboxRow k after with
      | none, none => True
      | none, some message' => Keyed env keyOf message'.body ∧ message'.leaseId = none
      | some message, some message' => Carried message message'
      | some message, none =>
        ∃ i leaseId, (notes i).Spent env leaseId ∧ message.leaseId = some leaseId) :
    InboxKept env keyOf notes before after where
  came message' hmessage' := by
    have hk := h message'.messageId
    rw [inboxRow_eq_some.mpr ⟨hmessage', rfl⟩] at hk
    cases hbefore : inboxRow message'.messageId before with
    | none =>
      rw [hbefore] at hk
      exact Or.inr hk
    | some message =>
      rw [hbefore] at hk
      exact Or.inl ⟨message, (inboxRow_eq_some.mp hbefore).1, hk⟩
  gone message hmessage := by
    have hk := h message.messageId
    rw [inboxRow_eq_some.mpr ⟨hmessage, rfl⟩] at hk
    cases hafter : inboxRow message.messageId after with
    | none =>
      rw [hafter] at hk
      exact Or.inr hk
    | some message' =>
      rw [hafter] at hk
      exact Or.inl ⟨message', (inboxRow_eq_some.mp hafter).1, hk⟩

/-- Staging keeps the messages. -/
theorem inboxKept_stage {messages : List InboxMessage} {inbox inbox' : Table InboxRow}
    (hkeyed : ∀ message ∈ messages, Keyed env keyOf message.body)
    (h : stage now messages inbox = .ok inbox') : InboxKept env keyOf notes inbox inbox' := by
  obtain ⟨staged, hstaged, hrows⟩ := lookup_stage now messages inbox
  obtain rfl : staged = inbox' := Except.ok.inj (hstaged.symm.trans h)
  refine InboxKept.of_rows fun k => ?_
  rw [hrows k]
  cases hbefore : inboxRow k inbox with
  | some message => exact Carried.refl message
  | none =>
    rw [Option.none_or]
    cases hfind : messages.find? fun message => message.id = k with
    | none => trivial
    | some message => exact ⟨hkeyed message (List.mem_of_find?_eq_some hfind), rfl⟩

theorem retryRow_carried (now : Instant) (retries : List InboxRetry) (message : InboxRow) :
    Carried message (retryRow now retries message) := by
  rw [retryRow_eq]
  split
  · exact ⟨rfl, rfl, Or.inl rfl⟩
  · exact Carried.refl message

/-- A settlement removes only messages whose work has ended. -/
theorem inboxKept_settle {settlement : InboxSettlement} {inbox inbox' : Table InboxRow} {i : ι}
    (hspent : ∀ leaseId ∈ settlement.acks, (notes i).Spent env leaseId)
    (h : settle now settlement inbox = .ok inbox') : InboxKept env keyOf notes inbox inbox' := by
  have hdistinct : ∀ retry ∈ settlement.retries, retry.leaseId ∉ settlement.acks := by
    intro retry hretry hack
    rw [settle_refused hretry hack] at h
    cases h
  obtain ⟨settled, hsettled, hrows⟩ : ∃ settled, settle now settlement inbox = .ok settled ∧ _ :=
    lookup_settle hdistinct inbox
  obtain rfl : settled = inbox' := Except.ok.inj (hsettled.symm.trans h)
  refine InboxKept.of_rows fun k => ?_
  rw [hrows k]
  cases hbefore : inboxRow k inbox with
  | none => exact trivial
  | some message =>
    cases hacked : settlement.acks.any fun leaseId => holdsLease leaseId message with
    | false =>
      rw [Option.filter_some_pos (by simp [hacked])]
      exact retryRow_carried now settlement.retries message
    | true =>
      rw [Option.filter_some_neg (by simp [hacked])]
      obtain ⟨leaseId, hleaseId, hheld⟩ := List.any_eq_true.mp hacked
      exact ⟨i, leaseId, hspent leaseId hleaseId, (holdsLease_iff.mp hheld).1⟩

/-! ### Claims, finishes and rejections -/

/-- A claim of a job that a worker holds keeps the invariant. -/
theorem WorkInv.claim (h : WorkInv env keyOf db notes) (hz : env.zod.Lawful) (henc : env.RoundTrips)
    {iv : Bytes} {job : QueueJob} {i : ι} {lease : InboxLease} (hlease : lease ∈ (notes i).held)
    (hparse : parseQueueJob env.zod lease.body = some job) {reply : ClaimJobReply}
    (hclaim : claimJob env now iv job.toJson db = .ok (reply, db')) :
    WorkStep env keyOf notes db db' := by
  have hjob : parseQueueJob env.zod job.toJson = some job :=
    parseQueueJob_toJson (parseQueueJob_valid hz hparse)
  have hkey : keyOf job.jobId = job.dedupeKey := h.heldKeyed i lease hlease job hparse
  have houtcome := Postgres.claimJob_outcome env now iv job.toJson db
  rw [hclaim] at houtcome
  change ClaimOutcome env now iv job.toJson db (db', .ok reply) at houtcome
  cases houtcome with
  | refused _ => exact h.still
  | @created job' jobs envelopes parse insert sealed =>
    obtain rfl : job = job' := Option.some.inj (hjob.symm.trans parse)
    have hnew : ∀ row ∈ db.jobs, row.dedupeKey ≠ job.dedupeKey := by
      intro row hrow hsame
      have hfresh := (Table.insert?_eq_some insert).2 row hrow
      rw [JobRow.isKey_dedupeKey row (JobRow.claimed job now) hsame] at hfresh
      cases hfresh
    refine h.change ⟨fun row hrow => ?_, fun row hrow => ?_, fun row hrow hlive => ?_⟩
      (InboxKept.refl env keyOf notes db.inbox) ?_ fun letter hletter => ⟨letter, hletter, rfl⟩
    · rcases (Table.mem_insert? insert).mp hrow with hold | rfl
      · exact h.keyed row hold
      · exact hkey
    · exact ⟨row, (Table.mem_insert? insert).mpr (Or.inl hrow), rfl⟩
    · rcases (Table.mem_insert? insert).mp hrow with hold | rfl
      · exact Or.inl ⟨row, hold, rfl, hlive⟩
      · -- nobody has seen a job of the key, so its message is there, and nobody has done with it
        rcases h.unclaimed i lease hlease job hparse with ⟨row, hrow', hsame⟩ | ⟨message, hmessage, hbody⟩
        · exact absurd hsame (hnew row hrow')
        · refine Or.inr ⟨message, hmessage, ⟨job, by rw [hbody, hparse], rfl⟩, ?_⟩
          intro j lease' _ _ hended
          obtain ⟨row, hrow', hsame⟩ := h.known j _ hended
          exact hnew row hrow' hsame
    · intro envelope henvelope value hvalue
      unfold SealedBy at sealed
      split at sealed
      · obtain ⟨ciphertext, hcipher, hinsert⟩ := sealed
        rcases Table.mem_insertUnless? hinsert henvelope with hold | rfl
        · exact h.sealed envelope hold value hvalue
        · obtain rfl : job.toJson = value :=
            Option.some.inj ((henc iv _ _ hcipher).symm.trans hvalue)
          intro job' hparse'
          rw [← Option.some.inj (hjob.symm.trans hparse'), hkey]
      · exact h.sealed envelope (sealed ▸ henvelope) value hvalue
  | @reclaimed job' row jobs parse lookup claimable update =>
    obtain rfl : job = job' := Option.some.inj (hjob.symm.trans parse)
    have hrows : ∀ row', row' ∈ jobs ↔ ∃ r ∈ db.jobs, (if decide (r.dedupeKey = job.dedupeKey) then
        JobRow.reclaim (row.attempts + 1) job.jobId now r else r) = row' := fun _ =>
      Table.mem_update? update
    refine h.change ⟨fun row' hrow' => ?_, fun r hr => ?_, fun row' hrow' hlive => ?_⟩
      (InboxKept.refl env keyOf notes db.inbox) h.sealed fun letter hletter => ⟨letter, hletter, rfl⟩
    · obtain ⟨r, hr, rfl⟩ := (hrows row').mp hrow'
      split
      · next hsame => exact hkey.trans (of_decide_eq_true hsame).symm
      · exact h.keyed r hr
    · refine ⟨_, (hrows _).mpr ⟨r, hr, rfl⟩, ?_⟩
      split <;> rfl
    · obtain ⟨r, hr, rfl⟩ := (hrows row').mp hrow'
      refine Or.inl ?_
      split
      · next hsame =>
        -- the row that is taken again is the one that was found
        have hfound : r = row := Table.eq_of_conflict hr (Table.lookup_mem lookup)
          (JobRow.isKey_dedupeKey _ _ ((of_decide_eq_true hsame).trans (Table.lookup_key lookup).symm))
        exact ⟨r, hr, rfl, hfound ▸ claimable.live⟩
      · next hsame =>
        rw [if_neg hsame] at hlive
        exact ⟨r, hr, rfl, hlive⟩

/-- The envelopes after a finish are those before it, with another status. -/
theorem finishedEnvelopes_ciphertext {jobId : String} {status : JobStatus}
    {envelopes : Table EnvelopeRow} {envelope : EnvelopeRow}
    (h : envelope ∈ finishedEnvelopes jobId status now envelopes) :
    ∃ e ∈ envelopes, e.ciphertext = envelope.ciphertext := by
  have hupdate : ∀ s : EnvelopeStatus, envelope ∈ envelopes.update (fun e => e.jobId = jobId)
      (EnvelopeRow.setStatus s now) → ∃ e ∈ envelopes, e.ciphertext = envelope.ciphertext := by
    intro s hmem
    obtain ⟨e, he, rfl⟩ := Table.mem_update.mp hmem
    refine ⟨e, he, ?_⟩
    split <;> rfl
  cases status with
  | dead => exact hupdate .dead h
  | uncertain => exact hupdate .uncertain h
  | done => exact ⟨envelope, (Table.mem_delete.mp h).1, rfl⟩
  | processing | deferred | failed => exact ⟨envelope, h, rfl⟩

/-- A finish keeps the work. -/
theorem WorkInv.finish (h : WorkInv env keyOf db notes) {jobId : String} {result : JobResult}
    {settlement : Settlement} (hfinish : finishJob now jobId result db = .ok (settlement, db')) :
    WorkStep env keyOf notes db db' := by
  have houtcome := Postgres.finishJob_outcome now jobId result db
  rw [hfinish] at houtcome
  change FinishOutcome now jobId result db (db', .ok settlement) at houtcome
  cases houtcome with
  | settled _ _ => exact h.still
  | @finished row _ _ lookup live finished _ =>
    have hrows : ∀ row', row' ∈ db'.jobs ↔ ∃ r ∈ db.jobs, (if decide (r.jobId = jobId) then
        r.finish result now else r) = row' := fun row' => by
      rw [finished.jobs]
      exact Table.mem_update
    refine h.change ⟨fun row' hrow' => ?_, fun r hr => ?_, fun row' hrow' hlive => ?_⟩ ?_ ?_ ?_
    · obtain ⟨r, hr, rfl⟩ := (hrows row').mp hrow'
      have hkeyed := h.keyed r hr
      split
      · rw [JobRow.finish_jobId, JobRow.finish_dedupeKey, hkeyed]
      · exact hkeyed
    · refine ⟨_, (hrows _).mpr ⟨r, hr, rfl⟩, ?_⟩
      split
      · exact JobRow.finish_dedupeKey result now r
      · rfl
    · obtain ⟨r, hr, rfl⟩ := (hrows row').mp hrow'
      refine Or.inl ⟨r, hr, ?_, ?_⟩
      · split
        · exact (JobRow.finish_dedupeKey result now r).symm
        · rfl
      · split at hlive
        · next hid =>
          have hfound : r = row := Table.eq_of_conflict hr (Table.lookup_mem lookup)
            (JobRow.isKey_jobId _ _ ((of_decide_eq_true hid).trans (Table.lookup_key lookup).symm))
          rw [hfound, live]
        · exact hlive
    · rw [finished.inbox]
      exact InboxKept.refl env keyOf notes db.inbox
    · intro envelope henvelope value hvalue
      rw [finished.envelopes] at henvelope
      obtain ⟨e, he, hsame⟩ := finishedEnvelopes_ciphertext henvelope
      exact h.sealed e he value (hsame ▸ hvalue)
    · intro letter hletter
      rw [finished.deadLetters]
      split
      · next written hwritten =>
        rcases Table.exists_mem_upsert (r := written) (f := written.rewrite) hletter with hold | hnew
        · exact ⟨_, hold, rfl⟩
        · exact ⟨_, hnew, rfl⟩
      · exact ⟨letter, hletter, rfl⟩

theorem mem_of_insertUnless? {α : Type*} [Constrained α] {t t' : Table α} {target : α → Bool} {r a : α}
    (h : t.insertUnless? target r = some t') (ha : a ∈ t) : a ∈ t' := by
  unfold Table.insertUnless? at h
  split at h
  · rwa [← Option.some.inj h]
  · exact (Table.mem_insert? h).mpr (Or.inl ha)

/-- The rejection of an invalid job keeps the work. -/
theorem WorkInv.reject (h : WorkInv env keyOf db notes) {input : InvalidJob}
    (hreject : rejectInvalidJob now input db = .ok db') : WorkStep env keyOf notes db db' := by
  unfold rejectInvalidJob at hreject
  split at hreject
  · cases hreject
  · next deadLetters hinsert =>
    obtain rfl := Except.ok.inj hreject
    exact h.change (JobsKept.of_eq h rfl) (InboxKept.refl env keyOf notes db.inbox) h.sealed
      fun letter (hletter : letter ∈ db.deadLetters) =>
        ⟨letter, mem_of_insertUnless? hinsert hletter, rfl⟩

/-- After a rejection there is a letter under the id of the message. -/
theorem rejectInvalidJob_letter {input : InvalidJob} (hreject : rejectInvalidJob now input db = .ok db') :
    ∃ letter ∈ db'.deadLetters, letter.jobId = input.messageId := by
  unfold rejectInvalidJob at hreject
  split at hreject
  · cases hreject
  · next deadLetters hinsert =>
    obtain rfl := Except.ok.inj hreject
    unfold Table.insertUnless? at hinsert
    split at hinsert
    · next hany =>
      obtain ⟨letter, hletter, hid⟩ := List.any_eq_true.mp hany
      exact ⟨letter, Option.some.inj hinsert ▸ hletter, of_decide_eq_true hid⟩
    · exact ⟨invalidLetter input now, (Table.mem_insert? hinsert).mpr (Or.inr rfl), rfl⟩

/-! ### Replays -/

/-- A replay that publishes stages a message for the job that it opens. -/
theorem WorkInv.replay (h : WorkInv env keyOf db notes) (hz : env.zod.Lawful) {jobId : String}
    {input : ReplayInput} (hfresh :
      db.replayOperations.lookup ReplayOperationRow.idempotencyKey input.idempotencyKey = none →
        ∀ message ∈ db.inbox, message.messageId ≠ replayMessageId env jobId input.idempotencyKey)
    {reply : ReplayReply} (hreplay : replayDeadLetter env now jobId input db = .ok (reply, db')) :
    WorkStep env keyOf notes db db' := by
  have houtcome := replayDeadLetter_outcome env now jobId input db
  rw [hreplay] at houtcome
  change ReplayOutcome env now jobId input db (db', .ok reply) at houtcome
  cases houtcome with
  | unchanged _ => exact h.still
  | @published _ job envelopeJobId published =>
    obtain ⟨letter, envelope, -, -, henvelope, -, hopened, hid⟩ := openEnvelope_eq_ok published.opened
    obtain ⟨value, hvalue, hparse⟩ := Option.bind_eq_some_iff.mp hopened
    have hkey : keyOf jobId = job.dedupeKey :=
      hid ▸ h.sealed envelope (Table.lookup_mem henvelope) value hvalue job hparse
    have hjob : parseQueueJob env.zod job.toJson = some job :=
      parseQueueJob_toJson (parseQueueJob_valid hz hparse)
    obtain ⟨inbox', hinsert, hrows⟩ := insertUnless?_staged db.inbox
      (replayMessageId env jobId input.idempotencyKey) job.toJson now now
    obtain rfl : inbox' = db'.inbox := Option.some.inj (hinsert.symm.trans published.inbox)
    have habsent : inboxRow (replayMessageId env jobId input.idempotencyKey) db.inbox = none :=
      Table.lookup_eq_none.mpr (hfresh published.fresh)
    have hstaged := hrows (replayMessageId env jobId input.idempotencyKey)
    rw [habsent, if_pos rfl, Option.none_or] at hstaged
    have hjobs : ∀ row', row' ∈ db'.jobs ↔ ∃ r ∈ db.jobs,
        (if decide (r.jobId = jobId) && decide (r.status = .dead) then r.reopen now else r) = row' :=
      fun row' => by
        rw [published.jobs]
        exact Table.mem_update
    refine h.change ⟨fun row' hrow' => ?_, fun r hr => ?_, fun row' hrow' hlive => ?_⟩
      (InboxKept.of_rows fun k => ?_) ?_ fun l hl => ⟨l, published.deadLetters ▸ hl, rfl⟩
    · obtain ⟨r, hr, rfl⟩ := (hjobs row').mp hrow'
      split <;> exact h.keyed r hr
    · refine ⟨_, (hjobs _).mpr ⟨r, hr, rfl⟩, ?_⟩
      split <;> rfl
    · obtain ⟨r, hr, rfl⟩ := (hjobs row').mp hrow'
      split
      · next hmet =>
        -- the job that is opened again has the key of the new message
        simp only [Bool.and_eq_true, decide_eq_true_eq] at hmet
        have hrow : r.dedupeKey = job.dedupeKey := by rw [← hkey, ← hmet.1, h.keyed r hr]
        refine Or.inr ⟨_, (inboxRow_eq_some.mp hstaged).1, ⟨job, hjob, hrow.symm⟩, ?_⟩
        intro j lease _ hlease
        cases hlease
      · next hmet =>
        rw [if_neg hmet] at hlive
        exact Or.inl ⟨r, hr, rfl, hlive⟩
    · rw [hrows k]
      cases hbefore : inboxRow k db.inbox with
      | some message => exact Carried.refl message
      | none =>
        rw [Option.none_or]
        by_cases hk : replayMessageId env jobId input.idempotencyKey = k
        · rw [if_pos hk]
          refine ⟨fun job' hparse' => ?_, rfl⟩
          rw [← Option.some.inj (hjob.symm.trans hparse'), hid, hkey]
        · rw [if_neg hk]
          trivial
    · intro e he value' hvalue'
      rw [published.envelopes] at he
      obtain ⟨e', he', rfl⟩ := Table.mem_update.mp he
      refine h.sealed e' he' value' ?_
      rw [← hvalue']
      split <;> rfl

/-! ### Pulls -/

variable {collation : Collation} {leaseIds : Nat → String} {input : PullInput}
  {inbox inbox' : Table InboxRow} {batch : InboxBatch}

/-- A pull leaves a message, releases it, or leases it under one of its lease ids. -/
structure Pulled (leaseIds : Nat → String) (message message' : InboxRow) : Prop where
  messageId : message'.messageId = message.messageId
  body : message'.body = message.body
  leaseId : message'.leaseId = none ∨ message'.leaseId = message.leaseId ∨
    ∃ n, message'.leaseId = some (leaseIds n)

/-- What a pull with new lease ids does to the messages, and what it hands out. -/
theorem pull_messages (hinj : Function.Injective leaseIds)
    (hfresh : ∀ n, ∀ message ∈ inbox, message.leaseId ≠ some (leaseIds n))
    (h : pull collation now leaseIds input inbox = .ok (batch, inbox')) :
    (∀ message' ∈ inbox', ∃ message ∈ inbox, Pulled leaseIds message message') ∧
      (∀ message ∈ inbox, ∃ message' ∈ inbox', Pulled leaseIds message message') ∧
      ∀ lease ∈ batch.messages, (∃ n, lease.leaseId = leaseIds n) ∧
        ∃ message' ∈ inbox', message'.leaseId = some lease.leaseId ∧
          message'.messageId = lease.id ∧ message'.body = lease.body := by
  obtain ⟨final, hpull, hrows⟩ := pull_eq collation now input hinj hfresh
  obtain ⟨rfl, rfl⟩ := Prod.mk.inj (Except.ok.inj (hpull.symm.trans h))
  have hdrawn : ∀ p ∈ chosen collation now leaseIds input inbox, ∃ n, leaseIds n = p.2 :=
    fun p hp => (mem_chosen hp).2.imp fun _ hn => hn.2
  have hkept : ∀ k message, inboxRow k inbox = some message →
      ∃ message', inboxRow k final = some message' ∧ Pulled leaseIds message message' := by
    intro k message hmessage
    refine ⟨_, by rw [hrows k, inboxRow_releaseExpired, hmessage]; rfl, ?_⟩
    have hreleased : Pulled leaseIds message
        (if isExpired now message then message.release now now else message) := by
      split
      · exact ⟨rfl, rfl, Or.inl rfl⟩
      · exact ⟨rfl, rfl, Or.inr (Or.inl rfl)⟩
    split
    · next p hp =>
      obtain ⟨n, hn⟩ := hdrawn p (List.mem_of_find?_eq_some hp)
      exact ⟨hreleased.messageId, hreleased.body, Or.inr (Or.inr ⟨n, by rw [hn]; rfl⟩)⟩
    · exact hreleased
  refine ⟨fun message' hmessage' => ?_, fun message hmessage => ?_, fun lease hlease => ?_⟩
  · have hfinal := inboxRow_eq_some.mpr ⟨hmessage', rfl⟩
    cases hbefore : inboxRow message'.messageId inbox with
    | none =>
      rw [hrows, inboxRow_releaseExpired, hbefore] at hfinal
      cases hfinal
    | some message =>
      obtain ⟨pulled, hpulled, hmoved⟩ := hkept _ message hbefore
      rw [Option.some.inj (hfinal.symm.trans hpulled)]
      exact ⟨message, (inboxRow_eq_some.mp hbefore).1, hmoved⟩
  · obtain ⟨message', hmessage', hmoved⟩ := hkept _ message (inboxRow_eq_some.mpr ⟨hmessage, rfl⟩)
    exact ⟨message', (inboxRow_eq_some.mp hmessage').1, hmoved⟩
  · obtain ⟨p, hp, rfl⟩ := List.mem_map.mp hlease
    obtain ⟨n, hn⟩ := hdrawn p hp
    have hreleased : inboxRow p.1.messageId (releaseExpired now inbox) = some p.1 :=
      inboxRow_eq_some.mpr ⟨(mem_chosen hp).1.1, rfl⟩
    -- the message of the lease is found by its own pair, since the message ids differ
    have hfind : (chosen collation now leaseIds input inbox).find?
        (fun q => q.1.messageId = p.1.messageId) = some p := by
      cases hfind : (chosen collation now leaseIds input inbox).find?
          (fun q => q.1.messageId = p.1.messageId) with
      | none => exact absurd (decide_eq_true rfl) (List.find?_eq_none.mp hfind p hp)
      | some q =>
        have hsame : q.1.messageId = p.1.messageId := by simpa using List.find?_some hfind
        rw [List.inj_on_of_nodup_map chosen_nodup (List.mem_of_find?_eq_some hfind) hp hsame]
    refine ⟨⟨n, hn.symm⟩, p.1.lease p.2 (now + input.visibilityTimeoutMs) now, ?_, rfl, rfl, rfl⟩
    have hleased : inboxRow p.1.messageId final =
        some (p.1.lease p.2 (now + input.visibilityTimeoutMs) now) := by
      rw [hrows, hreleased, Option.map_some, hfind]
    exact (inboxRow_eq_some.mp hleased).1

/-- **A pull keeps the invariant, whether its batch reaches the worker or not.** -/
theorem WorkInv.pull [DecidableEq ι] (h : WorkInv env keyOf db notes) {i : ι}
    (hempty : notes i = .empty) (hinj : Function.Injective leaseIds)
    (hfresh : ∀ n, ∀ message ∈ db.inbox, message.leaseId ≠ some (leaseIds n))
    (hunheld : ∀ n j, ∀ lease ∈ (notes j).held, lease.leaseId ≠ leaseIds n)
    (hpull : Postgres.pull collation now leaseIds input db.inbox = .ok (batch, inbox'))
    {held : List InboxLease} (hheld : ∀ lease ∈ held, lease ∈ batch.messages) :
    WorkInv env keyOf { db with inbox := inbox' }
      (Function.update notes i { QueueNote.empty with held }) := by
  -- a pull moves rows and leases; it adds and removes none
  obtain ⟨hcame, hkept, hhanded⟩ := pull_messages hinj hfresh hpull
  have hnotes : ∀ j, ∀ lease ∈ (Function.update notes i { QueueNote.empty with held } j).held,
      lease ∈ (notes j).held ∨ lease ∈ batch.messages :=
    (Function.forall_update_iff notes fun j note => ∀ lease ∈ note.held,
      lease ∈ (notes j).held ∨ lease ∈ batch.messages).mpr
        ⟨fun lease hlease => Or.inr (hheld lease hlease), fun _ _ _ hlease => Or.inl hlease⟩
  -- what the workers know of ended and rejected work is as it was
  have hknown : ∀ j, (Function.update notes i { QueueNote.empty with held } j).ended =
        (notes j).ended ∧
      (Function.update notes i { QueueNote.empty with held } j).rejected = (notes j).rejected :=
    (Function.forall_update_iff notes fun j note => note.ended = (notes j).ended ∧
      note.rejected = (notes j).rejected).mpr
        ⟨by rw [hempty]; exact ⟨rfl, rfl⟩, fun _ _ => ⟨rfl, rfl⟩⟩
  have hbodies : ∀ message' ∈ inbox', Keyed env keyOf message'.body := by
    intro message' hmessage'
    obtain ⟨message, hmessage, hmoved⟩ := hcame message' hmessage'
    exact hmoved.body ▸ h.bodies message hmessage
  refine
    { keyed := h.keyed, sealed := h.sealed, bodies := hbodies
      heldKeyed := fun j lease hlease => ?_
      held := fun j lease hlease message' hmessage' hid => ?_
      known := fun j key hkey => h.known j key ((hknown j).1 ▸ hkey)
      unclaimed := fun j lease hlease job hparse => ?_
      rejected := fun j id hid => h.rejected j id ((hknown j).2 ▸ hid)
      staged := fun row hrow hlive => ?_ }
  · rcases hnotes j lease hlease with hold | hnew
    · exact h.heldKeyed j lease hold
    · obtain ⟨-, message', hmessage', -, -, hbody⟩ := hhanded lease hnew
      exact hbody ▸ hbodies message' hmessage'
  · rcases hnotes j lease hlease with hold | hnew
    · obtain ⟨message, hmessage, hmoved⟩ := hcame message' hmessage'
      -- a row's lease was released, kept or drawn anew
      rcases hmoved.leaseId with hfree | hsame | ⟨n, hn⟩
      · rw [hfree] at hid
        cases hid
      · rw [hmoved.messageId, hmoved.body]
        exact h.held j lease hold message hmessage (hsame ▸ hid)
      · rw [hn] at hid
        exact absurd (Option.some.inj hid).symm (hunheld n j lease hold)
    · -- a lease id is on one message only
      obtain ⟨-, message, hmessage, hlease', hmessageId, hbody⟩ := hhanded lease hnew
      have hsame : message' = message := Table.eq_of_conflict hmessage' hmessage (by
        simp [Constrained.conflict, hid, hlease'])
      rw [hsame]
      exact ⟨hmessageId, hbody⟩
  · rcases hnotes j lease hlease with hold | hnew
    · rcases h.unclaimed j lease hold job hparse with hrow | ⟨message, hmessage, hbody⟩
      · exact Or.inl hrow
      · obtain ⟨message', hmessage', hmoved⟩ := hkept message hmessage
        exact Or.inr ⟨message', hmessage', hmoved.body.trans hbody⟩
    · obtain ⟨-, message', hmessage', -, -, hbody⟩ := hhanded lease hnew
      exact Or.inr ⟨message', hmessage', hbody⟩
  · obtain ⟨message, hmessage, ⟨job, hparse, hkey⟩, hnone⟩ := h.staged row hrow hlive
    obtain ⟨message', hmessage', hmoved⟩ := hkept message hmessage
    refine ⟨message', hmessage', ⟨job, by rw [hmoved.body, hparse], hkey⟩, ?_⟩
    intro j lease hlease hid
    by_cases hj : j = i
    · -- the worker has only begun, and has seen nothing
      rw [(hknown j).1, hj, hempty]
      exact List.not_mem_nil
    · rw [Function.update_of_ne hj] at hlease ⊢
      rcases hmoved.leaseId with hfree | hsame | ⟨n, hn⟩
      · rw [hfree] at hid
        cases hid
      · exact hnone j lease hlease (hsame ▸ hid)
      · rw [hn] at hid
        exact absurd (Option.some.inj hid).symm (hunheld n j lease hlease)

end Tables

/-! ## One call -/

section Call

variable {ι : Type*} {env : Env} {keyOf : String → String} {collation : Collation}
  {choice : QueueChoice} {db : Db} {notes : ι → QueueNote} {i : ι}

/-- What is assumed of a call: ids are new, and a job id has one key. -/
def Postgres.QueueChoice.Fresh (env : Env) (keyOf : String → String) (choice : QueueChoice) (db : Db)
    (notes : ι → QueueNote) : QueueCall → Prop
  | .pull _ => Function.Injective choice.leaseIds ∧
      (∀ n, ∀ message ∈ db.inbox, message.leaseId ≠ some (choice.leaseIds n)) ∧
      ∀ n j, ∀ lease ∈ (notes j).held, lease.leaseId ≠ choice.leaseIds n
  | .stage messages => ∀ message ∈ messages, Keyed env keyOf message.body
  | .replayDeadLetter jobId input =>
      db.replayOperations.lookup ReplayOperationRow.idempotencyKey input.idempotencyKey = none →
        ∀ message ∈ db.inbox, message.messageId ≠ replayMessageId env jobId input.idempotencyKey
  | _ => True

/-- A call that only works on the inbox. -/
theorem WorkInv.inbox (h : WorkInv env keyOf db notes) {inbox : Table InboxRow}
    (hinbox : InboxKept env keyOf notes db.inbox inbox) :
    WorkStep env keyOf notes db { db with inbox } :=
  h.change (.of_eq h rfl) hinbox h.sealed fun letter hletter => ⟨letter, hletter, rfl⟩

/-- **A call that a worker may make loses no message, unless its work has ended.** -/
theorem WorkInv.call [DecidableEq ι] (h : WorkInv env keyOf db notes) (hz : env.zod.Lawful)
    (henc : env.RoundTrips) {call : QueueCall}
    (hasks : (queueContract env keyOf).asks (notes i) call)
    (hfresh : choice.Fresh env keyOf db notes call) :
    WorkStep env keyOf notes db (queueStore collation env choice db call).1 := by
  -- one lemma for each call that writes; a call the store refuses leaves it as it was
  cases call with
  | accept _ | handle _ | now => exact h.still
  | pull input =>
    refine commit_cases h.still fun batch db' hpull => ?_
    cases hresult : Postgres.pull collation choice.now choice.leaseIds input db.inbox with
    | error text =>
      rw [hresult] at hpull
      cases hpull
    | ok result =>
      rw [hresult] at hpull
      cases hpull
      obtain ⟨hinj, hnew, hunheld⟩ := hfresh
      refine ⟨?_, fun message hmessage => Or.inl ?_⟩
      · have hnone : ∀ lease ∈ ([] : List InboxLease), lease ∈ result.1.messages :=
          fun lease hlease => absurd hlease List.not_mem_nil
        have hinv := h.pull hasks hinj hnew hunheld hresult hnone
        rwa [show ({ QueueNote.empty with held := [] } : QueueNote) = notes i from hasks.symm,
          Function.update_eq_self] at hinv
      · obtain ⟨message', hmessage', hmoved⟩ := (pull_messages hinj hnew hresult).2.1 message hmessage
        exact ⟨message', hmessage', hmoved.messageId⟩
  | claimJob job =>
    obtain ⟨lease, hlease, hparse⟩ := hasks
    exact commit_cases h.still fun reply db' hclaim => h.claim hz henc hlease hparse hclaim
  | finishJob jobId result => exact commit_cases h.still fun settlement db' hfinish => h.finish hfinish
  | rejectInvalidJob input =>
    refine commit_cases h.still fun u db' hreject => ?_
    cases hresult : rejectInvalidJob choice.now input db with
    | error text =>
      rw [hresult] at hreject
      cases hreject
    | ok rejected =>
      rw [hresult] at hreject
      cases hreject
      exact h.reject hresult
  | settle settlement =>
    refine commit_cases h.still fun u db' hsettle => ?_
    cases hparse : parseSettlement settlement with
    | error text =>
      simp only [hparse] at hsettle
      cases hsettle
    | ok parsed =>
      simp only [hparse] at hsettle
      cases hresult : Postgres.settle choice.now parsed db.inbox with
      | error text =>
        rw [hresult] at hsettle
        cases hsettle
      | ok inbox =>
        rw [hresult] at hsettle
        cases hsettle
        -- the worker acknowledges only leases it asked to
        refine h.inbox (inboxKept_settle (i := i) (fun leaseId hack => hasks leaseId ?_) hresult)
        rwa [parseSettlement_acks hparse] at hack
  | stage messages =>
    refine commit_cases h.still fun u db' hstage => ?_
    cases hresult : Postgres.stage choice.now messages db.inbox with
    | error text =>
      rw [hresult] at hstage
      cases hstage
    | ok inbox =>
      rw [hresult] at hstage
      cases hstage
      exact h.inbox (inboxKept_stage hfresh hresult)
  | replayDeadLetter jobId input =>
    exact commit_cases h.still fun reply db' hreplay => h.replay hz hfresh hreplay

/-- A claim is a duplicate only of a job that has ended. -/
theorem claimJob_duplicate {now : Instant} {iv : Bytes} {job : QueueJob} {db' : Db}
    (hparse : parseQueueJob env.zod job.toJson = some job)
    (h : claimJob env now iv job.toJson db = .ok (.duplicate, db')) :
    job.dedupeKey ∈ endedKeys db' := by
  unfold claimJob at h
  simp only [hparse] at h
  split at h
  · unfold claimExisting at h
    split at h
    · cases h
    · next existing hlookup =>
      split at h
      · next hterminal =>
        cases h
        exact mem_endedKeys.mpr
          ⟨existing, Table.lookup_mem hlookup, hterminal, Table.lookup_key hlookup⟩
      · grind
  · grind

/-- A finish is acknowledged only if the job has ended. -/
theorem WorkInv.finishJob_ack (h : WorkInv env keyOf db notes) {now : Instant} {jobId : String}
    {result : JobResult} {db' : Db} (hfinish : finishJob now jobId result db = .ok (.ack, db')) :
    keyOf jobId ∈ endedKeys db' := by
  have houtcome := Postgres.finishJob_outcome now jobId result db
  rw [hfinish] at houtcome
  change FinishOutcome now jobId result db (db', .ok .ack) at houtcome
  cases houtcome with
  | @settled row lookup terminal =>
    have hrow := Table.lookup_mem lookup
    refine mem_endedKeys.mpr ⟨row, hrow, terminal, ?_⟩
    rw [← h.keyed row hrow, Table.lookup_key lookup]
  | @finished row _ _ lookup _ finished hack =>
    have hrow := Table.lookup_mem lookup
    refine mem_endedKeys.mpr ⟨row.finish result now, ?_, hack.mp rfl, ?_⟩
    · rw [finished.jobs]
      exact Table.mem_update.mpr ⟨row, hrow, if_pos (decide_eq_true (Table.lookup_key lookup))⟩
    · rw [JobRow.finish_dedupeKey, ← h.keyed row hrow, Table.lookup_key lookup]

/-- Every call but a pull leaves a worker its leases, and what it knows. -/
theorem QueueNote.next_extends {note : QueueNote} {call : QueueCall} (answer : call.Answer)
    (after : Db) (hpull : ∀ input, call ≠ .pull input) :
    note.Extends (note.next db call answer after) where
  held := by
    cases call with
    | pull input => exact absurd rfl (hpull input)
    | _ => rfl
  ended key hkey := List.mem_append_left _ hkey
  rejected id hid := by
    cases call with
    | rejectInvalidJob input =>
      rcases answer with error | u
      · exact hid
      · exact List.mem_append_left _ hid
    | _ => exact hid

variable [DecidableEq ι]

/-- What a worker knows after its call is so. -/
theorem WorkInv.next {after : Db} (h : WorkInv env keyOf after notes) (i : ι) (db : Db)
    {call : QueueCall} (answer : call.Answer) (hpull : ∀ input, call ≠ .pull input)
    (hletter : ∀ id ∈ ((notes i).next db call answer after).rejected, id ∈ (notes i).rejected ∨
      ∃ letter ∈ after.deadLetters, letter.jobId = id) :
    WorkInv env keyOf after (Function.update notes i ((notes i).next db call answer after)) ∧
      (notes i).Extends ((notes i).next db call answer after) :=
  have hextends := QueueNote.next_extends answer after hpull
  ⟨h.learn hextends.held (fun _ hkey => List.mem_append.mp hkey) hletter, hextends⟩

/-- A pull hands out the messages that it has leased. -/
theorem WorkInv.keepsPull (h : WorkInv env keyOf db notes) (hz : env.zod.Lawful)
    (henc : env.RoundTrips) {input : PullInput}
    (hasks : (queueContract env keyOf).asks (notes i) (.pull input))
    (hfresh : choice.Fresh env keyOf db notes (.pull input)) :
    Watched.KeepsCall (queueContract env keyOf) (WorkInv env keyOf) (queueStore collation env)
      QueueNote.next db notes i choice (.pull input) := by
  have hstep : WorkStep env keyOf notes db (queueStore collation env choice db (.pull input)).1 :=
    h.call hz henc hasks hfresh
  cases hanswer : (queueStore collation env choice db (.pull input)).2 with
  | error error =>
    unfold Watched.KeepsCall
    simp only [hanswer]
    exact ⟨hstep.inv.learn rfl (fun _ hkey => List.mem_append.mp hkey) fun _ hid => Or.inl hid,
      ⟨rfl, fun _ hkey => List.mem_append_left _ hkey, fun _ hid => hid⟩⟩
  | ok batch =>
    obtain ⟨db', hcommit, hdb'⟩ := commit_ok hanswer
    cases hresult : Postgres.pull collation choice.now choice.leaseIds input db.inbox with
    | error text =>
      rw [hresult] at hcommit
      cases hcommit
    | ok result =>
      rw [hresult] at hcommit
      cases hcommit
      obtain ⟨hinj, hnew, hunheld⟩ := hfresh
      -- the worker holds the leases of the batch it was answered
      have hpulled := h.pull hasks hinj hnew hunheld hresult fun lease hlease => hlease
      have hempty : notes i = .empty := hasks
      have hinv : WorkInv env keyOf { db with inbox := result.2 } (Function.update
          (Function.update notes i { QueueNote.empty with held := result.1.messages }) i
          ((notes i).next db (.pull input) (.ok result.1) { db with inbox := result.2 })) := by
        refine hpulled.learn ?_ (fun key hkey => ?_) fun id hid => ?_
        · rw [Function.update_self]
          rfl
        · rw [hempty] at hkey
          rw [Function.update_self]
          exact List.mem_append.mp hkey
        · rw [hempty] at hid
          cases hid
      rw [Function.update_idem] at hinv
      have hdb : (queueStore collation env choice db (.pull input)).1 =
          { db with inbox := result.2 } := hdb'
      unfold Watched.KeepsCall
      simp only [hanswer, hdb]
      refine ⟨hinv, rfl, fun lease hlease => hinv.heldKeyed i lease ?_⟩
      rw [Function.update_self]
      exact hlease

/-- **A call that a worker may make keeps the invariant, and its answer is one of the contract.** -/
theorem WorkInv.keepsCall (h : WorkInv env keyOf db notes) (hz : env.zod.Lawful)
    (henc : env.RoundTrips) {call : QueueCall}
    (hasks : (queueContract env keyOf).asks (notes i) call)
    (hfresh : choice.Fresh env keyOf db notes call) :
    Watched.KeepsCall (queueContract env keyOf) (WorkInv env keyOf) (queueStore collation env)
      QueueNote.next db notes i choice call := by
  have hstep : WorkStep env keyOf notes db (queueStore collation env choice db call).1 :=
    h.call hz henc hasks hfresh
  have hnext := hstep.inv.next i db (queueStore collation env choice db call).2
  cases call with
  | pull input => exact h.keepsPull hz henc hasks hfresh
  | accept _ | handle _ | now | settle _ | stage _ | replayDeadLetter _ _ =>
    exact hnext (fun _ hpull => by cases hpull) fun _ hid => Or.inl hid
  | claimJob job =>
    obtain ⟨hinv, hextends⟩ := hnext (fun _ hpull => by cases hpull) fun _ hid => Or.inl hid
    -- a claim refused as a duplicate shows a job that has ended
    refine ⟨hinv, hextends, fun hduplicate => List.mem_append_right _ ?_⟩
    obtain ⟨lease, -, hparse⟩ := hasks
    obtain ⟨db', hclaim, hdb'⟩ := commit_ok hduplicate
    exact hdb' ▸ claimJob_duplicate (parseQueueJob_toJson (parseQueueJob_valid hz hparse)) hclaim
  | finishJob jobId result =>
    obtain ⟨hinv, hextends⟩ := hnext (fun _ hpull => by cases hpull) fun _ hid => Or.inl hid
    refine ⟨hinv, hextends, fun hack => List.mem_append_right _ ?_⟩
    obtain ⟨db', hfinish, hdb'⟩ := commit_ok hack
    exact hdb' ▸ h.finishJob_ack hfinish
  | rejectInvalidJob input =>
    -- a rejected message leaves a letter under its id
    have hletter : (queueStore collation env choice db (.rejectInvalidJob input)).2 = .ok () →
        ∃ letter ∈ (queueStore collation env choice db (.rejectInvalidJob input)).1.deadLetters,
          letter.jobId = input.messageId := fun hok => by
      obtain ⟨db', hcommit, hdb'⟩ := commit_ok hok
      cases hresult : rejectInvalidJob choice.now input db with
      | error text =>
        rw [hresult] at hcommit
        cases hcommit
      | ok rejected =>
        rw [hresult] at hcommit
        cases hcommit
        exact hdb' ▸ rejectInvalidJob_letter hresult
    refine (hnext (fun _ hpull => by cases hpull) fun id hid => ?_).imp_right
      fun hextends => ⟨hextends, fun hok => ?_⟩
    · cases hanswer : (queueStore collation env choice db (.rejectInvalidJob input)).2 with
      | error error =>
        rw [hanswer] at hid
        exact Or.inl hid
      | ok u =>
        rw [hanswer] at hid
        rcases List.mem_append.mp hid with hold | hnew
        · exact Or.inl hold
        · rw [List.mem_singleton.mp hnew]
          exact Or.inr (hletter hanswer)
    · show input.messageId ∈ ((notes i).next db (.rejectInvalidJob input) _ _).rejected
      rw [hok]
      exact List.mem_append_right _ (List.mem_singleton.mpr rfl)

end Call

/-! ## Runs -/

/-- A worker with a batch, who stages messages, or who replays a dead letter. -/
inductive QueueProcess where
  | worker (input : PullInput)
  | producer (messages : List InboxMessage)
  | operator (jobId : String) (input : ReplayInput)

def QueueProcess.program (env : Env) : QueueProcess → QueueProg Unit
  | worker input => processNextBatch env input
  | producer messages => .call (.stage messages) .ret
  | operator jobId input => .call (.replayDeadLetter jobId input) fun reply =>
      .ret (reply.map fun _ => ())

section Run

variable {ι : Type*} [DecidableEq ι] (collation : Collation) (env : Env) (keyOf : String → String)
  (processes : ι → QueueProcess)

abbrev QueuePool (ι : Type*) :=
  Watched ι Db QueueCall QueueCall.Answer (Except Thrown Unit) QueueNote

/-- The processes before any step, on empty tables. -/
def queuePool : QueuePool ι where
  pool := { shared := ∅, procs := fun i => some ((processes i).program env) }
  notes _ := .empty

def queueMachine : Machine (QueuePool ι) (ι × QueueChoice) Unit :=
  Watched.machine (queueStore collation env) QueueNote.next

/-- The tables after the steps. -/
def queueDb (steps : List (ι × QueueChoice)) : Db :=
  ((queueMachine collation env).run (queuePool env processes) steps).pool.shared

/-- The call that a step makes is one with new ids. -/
def FreshStep (w : QueuePool ι) (s : ι × QueueChoice) : Prop :=
  ∀ call k, w.pool.procs s.1 = some (.call call k) → s.2.Fresh env keyOf w.pool.shared w.notes call

variable {collation env keyOf processes} {steps : List (ι × QueueChoice)}

theorem meets_program (process : QueueProcess) :
    (process.program env).Meets (queueContract env keyOf) (fun _ _ => True) .empty := by
  cases process with
  | worker input => exact meets_processNextBatch input
  | producer messages => exact ⟨trivial, fun _ _ _ => trivial⟩
  | operator jobId input => exact ⟨trivial, fun _ _ _ => trivial⟩

/-- The invariant holds in every reachable state. -/
theorem keeps_queueMachine (hz : env.zod.Lawful) (henc : env.RoundTrips)
    (hsteps : (queueMachine collation env).Admits (FreshStep env keyOf) (queuePool env processes)
      steps) :
    ((queueMachine collation env).run (queuePool env processes) steps).Keeps
      (queueContract env keyOf) (fun _ _ _ => True) (WorkInv env keyOf) := by
  refine Watched.Keeps.run ⟨workInv_empty env keyOf, fun i p hp => ?_⟩
    (fun w i choice call k hcall hfresh hinv hasks =>
      hinv.keepsCall hz henc hasks (hfresh call k hcall)) hsteps
  rw [← Option.some.inj hp]
  exact meets_program (processes i)

/-- A key that is learnt in a step is one of a job that has ended after it. -/
theorem ended_step {w : QueuePool ι} {s : ι × QueueChoice} {i : ι} {key : String}
    (h : key ∈ (((queueMachine collation env).next w s).notes i).ended) :
    key ∈ (w.notes i).ended ∨
      key ∈ endedKeys ((queueMachine collation env).next w s).pool.shared := by
  obtain ⟨j, choice⟩ := s
  change key ∈ ((w.step (queueStore collation env) QueueNote.next (j, choice)).notes i).ended at h
  show _ ∨ key ∈ endedKeys (w.step (queueStore collation env) QueueNote.next (j, choice)).pool.shared
  by_cases hcall : ∃ call k, w.pool.procs j = some (.call call k)
  · obtain ⟨call, k, hcall⟩ := hcall
    by_cases hi : i = j
    · subst hi
      rw [Watched.step_notes_self hcall] at h
      rw [Watched.step_shared hcall]
      exact List.mem_append.mp h
    · rw [Watched.step_notes_of_ne hi] at h
      exact Or.inl h
  · push Not at hcall
    rw [Watched.step_idle choice hcall] at h
    exact Or.inl h

/-- Whoever knows a key has it from an earlier state, where the job had ended. -/
theorem ended_earlier {i : ι} {key : String}
    (h : key ∈ (((queueMachine collation env).run (queuePool env processes) steps).notes i).ended) :
    ∃ earlier, earlier <+: steps ∧ key ∈ endedKeys (queueDb collation env processes earlier) := by
  induction steps using List.reverseRecOn with
  | nil => cases h
  | append_singleton steps s ih =>
    rw [Machine.run_snoc] at h
    rcases ended_step h with hbefore | hnow
    · obtain ⟨earlier, hopens, hended⟩ := ih hbefore
      exact ⟨earlier, hopens.trans (List.prefix_append steps [s]), hended⟩
    · refine ⟨steps ++ [s], List.prefix_rfl, ?_⟩
      rwa [queueDb, Machine.run_snoc]

/-- Only a spent lease takes a message along. -/
theorem message_kept (hz : env.zod.Lawful) (henc : env.RoundTrips) {w : QueuePool ι}
    {s : ι × QueueChoice} (hkeeps : w.Keeps (queueContract env keyOf) (fun _ _ _ => True)
      (WorkInv env keyOf)) (hfresh : FreshStep env keyOf w s) {message : InboxRow}
    (hmessage : message ∈ w.pool.shared.inbox) :
    (∃ message' ∈ ((queueMachine collation env).next w s).pool.shared.inbox,
        message'.messageId = message.messageId) ∨
      ∃ i leaseId, (w.notes i).Spent env leaseId ∧ message.leaseId = some leaseId := by
  obtain ⟨i, choice⟩ := s
  show (∃ message' ∈ (w.step (queueStore collation env) QueueNote.next (i, choice)).pool.shared.inbox,
    _) ∨ _
  by_cases hcall : ∃ call k, w.pool.procs i = some (.call call k)
  · obtain ⟨call, k, hcall⟩ := hcall
    have hasks := (hkeeps.2 i _ hcall).1
    rw [Watched.step_shared hcall]
    exact (hkeeps.1.call hz henc hasks (hfresh call k hcall)).messages message hmessage
  · push Not at hcall
    rw [Watched.step_idle choice hcall]
    exact Or.inl ⟨message, hmessage, rfl⟩

/--
**No staged work is lost.** In every state that a run reaches, a job that goes on has a message; and
a message is deleted only after the job of its key has ended, or, where it is no job, once it has a
dead letter.
-/
theorem staged_work_kept (hz : env.zod.Lawful) (henc : env.RoundTrips)
    (hsteps : (queueMachine collation env).Admits (FreshStep env keyOf) (queuePool env processes)
      steps) :
    (∀ row ∈ (queueDb collation env processes steps).jobs,
      row.status = .processing ∨ row.status = .deferred ∨ row.status = .failed →
      ∃ message ∈ (queueDb collation env processes steps).inbox,
        Carries env row.dedupeKey message) ∧
    ∀ pre s post, steps = pre ++ s :: post →
      ∀ message ∈ (queueDb collation env processes pre).inbox,
      (∀ message' ∈ (queueDb collation env processes (pre ++ [s])).inbox,
        message'.messageId ≠ message.messageId) →
      match parseQueueJob env.zod message.body with
      | some job => ∃ earlier, earlier <+: pre ∧
          ∃ row ∈ (queueDb collation env processes earlier).jobs, row.dedupeKey = job.dedupeKey ∧
            (row.status = .done ∨ row.status = .dead ∨ row.status = .uncertain)
      | none => ∃ letter ∈ (queueDb collation env processes pre).deadLetters,
          letter.jobId = message.messageId := by
  refine ⟨fun row hrow hlive => ?_, ?_⟩
  · have hterminal : row.status.isTerminal = false := by
      rcases hlive with h | h | h <;> rw [h] <;> rfl
    obtain ⟨message, hmessage, hcarries, -⟩ :=
      (keeps_queueMachine hz henc hsteps).1.staged row hrow hterminal
    exact ⟨message, hmessage, hcarries⟩
  · rintro pre s post rfl message hmessage hgone
    have hkeeps := keeps_queueMachine hz henc hsteps.left
    rw [queueDb, Machine.run_snoc] at hgone
    have hkept : (∃ message' ∈ ((queueMachine collation env).next _ s).pool.shared.inbox,
        message'.messageId = message.messageId) ∨ _ :=
      message_kept hz henc hkeeps hsteps.at hmessage
    rcases hkept with ⟨message', hmessage', hid⟩ | ⟨i, leaseId, hspent, hid⟩
    · exact absurd hid (hgone message' hmessage')
    · obtain ⟨lease, hlease, rfl, hended, hrejected⟩ := hspent
      obtain ⟨hmessageId, hbody⟩ := hkeeps.1.held i lease hlease message hmessage hid
      rw [hbody, hmessageId]
      cases hparse : parseQueueJob env.zod lease.body with
      | none => exact hkeeps.1.rejected i lease.id (hrejected hparse)
      | some job =>
        obtain ⟨earlier, hopens, hmem⟩ := ended_earlier (hended job hparse)
        obtain ⟨row, hrow, hterminal, hkey⟩ := mem_endedKeys.mp hmem
        refine ⟨earlier, hopens, row, hrow, hkey, ?_⟩
        cases hstatus : row.status <;> simp_all [JobStatus.isTerminal]

end Run

/-! ### A run -/

namespace StagedText

open Sample (textJob firstId)

def message : InboxMessage := ⟨"m", (textJob firstId).toJson, 0⟩

/-- A producer, and a worker. -/
def processes : Bool → QueueProcess
  | false => .producer [message]
  | true => .worker ⟨1, 30000⟩

def choice : QueueChoice where
  now := 0
  iv := Sample.iv
  leaseIds := Sample.leaseIds
  fault := none
  acceptance := .accept
  handled := .ok (.completed [])

/-- Nothing is assumed of the call. -/
def isPlain : QueueCall → Bool
  | .pull _ | .stage _ | .replayDeadLetter _ _ => false
  | _ => true

theorem freshStep_of_plain {ι : Type*} {env : Env} {keyOf : String → String} {w : QueuePool ι}
    {s : ι × QueueChoice} (h : w.Allowed (fun _ _ _ call => isPlain call = true) s) :
    FreshStep env keyOf w s := by
  intro call k hcall
  have hplain := h call k hcall
  cases call with
  | pull _ | stage _ | replayDeadLetter _ _ => cases hplain
  | _ => exact trivial

/-- The message is staged, leased, accepted, and its job is claimed. -/
def steps : List (Bool × QueueChoice) :=
  [(false, choice), (true, choice), (true, choice), (true, choice)]

def keyOf : String → String := fun _ => "text:1"

theorem message_keyed : Keyed Sample.env keyOf message.body := by
  intro job hparse
  have hvalid : (textJob firstId).Valid Sample.env.zod := Sample.textJob_valid firstId (by decide)
  rw [← Option.some.inj ((parseQueueJob_toJson hvalid).symm.trans hparse)]
  rfl

/-- The lease ids of the sample are fresh. -/
theorem steps_fresh : (queueMachine codePoints Sample.env).Admits (FreshStep Sample.env keyOf)
    (queuePool Sample.env processes) steps := by
  refine ⟨?_, ?_, ?_, ?_, trivial⟩
  · intro call k hcall
    cases hcall
    intro staged hstaged
    rw [List.mem_singleton.mp hstaged]
    exact message_keyed
  · intro call k hcall
    cases hcall
    refine ⟨Sample.leaseIds_injective, fun n staged hstaged => ?_, fun n j lease hlease => ?_⟩
    · have hfree : ∀ row ∈ (queueDb codePoints Sample.env processes [(false, choice)]).inbox.rows,
          row.leaseId = none := by decide +kernel
      rw [hfree staged hstaged]
      simp
    · cases j <;> cases hlease
  · exact freshStep_of_plain (by decide +kernel)
  · exact freshStep_of_plain (by decide +kernel)

end StagedText

/-- The claimed job of the run has a message, and so it is in every state that the run reaches. -/
theorem staged_work_kept_text :
    (∃ row ∈ (queueDb codePoints Sample.env StagedText.processes StagedText.steps).jobs.rows,
      row.status = .processing) ∧
    ∀ row ∈ (queueDb codePoints Sample.env StagedText.processes StagedText.steps).jobs,
      row.status = .processing ∨ row.status = .deferred ∨ row.status = .failed →
      ∃ message ∈ (queueDb codePoints Sample.env StagedText.processes StagedText.steps).inbox,
        Carries Sample.env row.dedupeKey message :=
  ⟨by decide +kernel,
    (staged_work_kept Sample.zod_lawful Sample.env_roundTrips StagedText.steps_fresh).1⟩

end InboxServer
