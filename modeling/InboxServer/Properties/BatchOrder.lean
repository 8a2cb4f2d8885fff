import InboxServer.Infra.Interleave
import InboxServer.Api.D1.Limits

/-!
# The order of batches of rate limits on D1

Any number of calls of `consumeRateLimits` interleave, statement by statement. A call that is
allowed takes its turn at the write that succeeds, since the version that it wrote to is the one
that it has read; a call that is refused takes its turn at its last read. Run alone and one after
the other, in the order of these turns, the calls leave the same rows and return the same results.

* `batchOutline` — what a call knows about the row that it has read, wherever it stands
* `ordered` — every run has its turns
* `consumeRateLimits_serial` — the turns are an execution one at a time
-/

namespace InboxServer.D1

open Infra
open Postgres (RateLimitBatchReply batchScope)

/-! ## Calls that interleave -/

/-- What a call has read from the clock since it last read the row. -/
def clockNote : Watched.Note Db LimitStep LimitStep.Answer (List Instant)
  | _, _, .selectBatch _, _, _ => []
  | readings, _, .now, now, _ => readings ++ [now]
  | readings, _, _, _, _ => readings

/-- Calls that run on one database, each with what it has read from the clock. -/
abbrev BatchRace :=
  Watched ℕ Db LimitStep LimitStep.Answer (Except ErrorText RateLimitBatchReply) (List Instant)

abbrev batchMachine : Machine BatchRace (ℕ × Instant) Unit := Watched.machine serveLimits clockNote

def BatchRace.start (db : Db) (calls : ℕ → Option (List RateLimitInput)) : BatchRace where
  pool := { shared := db, procs := fun i => (calls i).map consumeRateLimits }
  notes _ := []

/-- The decision on a row that was read. -/
def decision (inputs : List RateLimitInput) (row : Option RateLimitBatchRow) (current : Instant) :
    RateLimitBatchDecision :=
  decideRateLimitBatch inputs ((row.map RateLimitBatchRow.state).getD []) current

/-- The row of a batch scope. -/
def batchRow (scope : String) (db : Db) : Option RateLimitBatchRow :=
  db.rateLimitBatches.lookup RateLimitBatchRow.scope scope

/-! ## Calls alone -/

/-- The statements while nothing else runs; the clock reads what is left of a list. -/
def serveAlone : Db × List Instant → (c : LimitStep) → (Db × List Instant) × c.Answer
  | (db, clock), .now => ((db, clock.tail), clock.headD 0)
  | (db, clock), c => (((serveLimits 0 db c).1, clock), (serveLimits 0 db c).2)

/-- Calls one at a time, each with the clock's reading at its decision and at its write. -/
def aloneMachine : Machine Db (List RateLimitInput × Instant × Instant)
    (Except ErrorText RateLimitBatchReply) where
  step db call :=
    let (s, reply) := (consumeRateLimits call.1).exec serveAlone (db, [call.2.1, call.2.2])
    (s.1, reply)

section Alone

variable {db : Db} {inputs : List RateLimitInput} {decided stamped : Instant}
  {counts : Entries Nat} {states : List RateLimitState}

theorem consumeRateLimits_of_ne (hne : inputs ≠ []) : ∃ again,
    consumeRateLimits inputs = .call (.selectBatch (batchScope inputs)) fun row =>
      .call .now fun current => decideBatch inputs row current again := by
  refine ⟨attemptBatch inputs 4, ?_⟩
  rw [consumeRateLimits, if_neg (by simpa using hne)]
  rfl

theorem alone_rejected (hne : inputs ≠ []) {retryAt : Instant}
    (h : decision inputs (batchRow (batchScope inputs) db) decided =
      .rejected counts states retryAt) :
    aloneMachine.step db (inputs, decided, stamped) = (db, .ok (.refused counts retryAt)) := by
  obtain ⟨again, hprogram⟩ := consumeRateLimits_of_ne hne
  simp only [decision, batchRow] at h
  simp only [aloneMachine, hprogram, Prog.exec_call, serveAlone, serveLimits, List.headD,
    decideBatch, h, Prog.exec_ret]

/-- The write of a call that finds the row of its read changes it. -/
theorem updateBatch_found {scope : String} {batches : Table RateLimitBatchRow}
    {row : RateLimitBatchRow} (h : batches.lookup RateLimitBatchRow.scope scope = some row)
    (state : List RateLimitState) (version : Nat) (now : Instant) :
    (updateBatch state version now scope row.version batches).2 > 0 := by
  refine List.countP_pos_iff.mpr ⟨row, Table.lookup_mem h, ?_⟩
  simp [Table.lookup_key h]

theorem insertBatch_absent (row : RateLimitBatchRow) {batches : Table RateLimitBatchRow}
    (h : batches.lookup RateLimitBatchRow.scope row.scope = none) :
    (insertBatch row batches).2 = 1 := by
  obtain ⟨batches', hins⟩ := Table.insert?_of_lookup_eq_none (r := row)
    (fun a hc => by simpa [Constrained.conflict] using hc) h
  rw [insertBatch, hins]

/-- A call that is allowed writes its row anew. -/
theorem alone_update (hne : inputs ≠ []) {row : RateLimitBatchRow}
    (hrow : batchRow (batchScope inputs) db = some row)
    (h : decision inputs (some row) decided = .allowed counts states) :
    aloneMachine.step db (inputs, decided, stamped) =
      ({ db with
          rateLimitBatches := (updateBatch states (row.version + 1) stamped (batchScope inputs)
            row.version db.rateLimitBatches).1 }, .ok (.allowed counts)) := by
  have hchanges := updateBatch_found hrow states (row.version + 1) stamped
  obtain ⟨again, hprogram⟩ := consumeRateLimits_of_ne hne
  simp only [decision, batchRow] at h hrow
  simp only [aloneMachine, hprogram, Prog.exec_call, serveAlone, serveLimits, List.headD, List.tail,
    decideBatch, hrow, h, writeBatch, hchanges, if_true, Prog.exec_ret]

/-- The first call of a scope that is allowed inserts its row. -/
theorem alone_insert (hne : inputs ≠ []) (hrow : batchRow (batchScope inputs) db = none)
    (h : decision inputs none decided = .allowed counts states) :
    aloneMachine.step db (inputs, decided, stamped) =
      ({ db with
          rateLimitBatches := (insertBatch (.first (batchScope inputs) states stamped)
            db.rateLimitBatches).1 }, .ok (.allowed counts)) := by
  have hchanges : (insertBatch (.first (batchScope inputs) states stamped)
      db.rateLimitBatches).2 > 0 := by
    have hone := insertBatch_absent (.first (batchScope inputs) states stamped) hrow
    omega
  obtain ⟨again, hprogram⟩ := consumeRateLimits_of_ne hne
  simp only [decision, batchRow] at h hrow
  simp only [aloneMachine, hprogram, Prog.exec_call, serveAlone, serveLimits, List.headD, List.tail,
    decideBatch, hrow, h, writeBatch, hchanges, if_true, Prog.exec_ret]

end Alone

/-! ## What a call knows -/

/-- Every row of a batch stays, as it is or in a later version. -/
def Advances (db db' : Db) : Prop :=
  ∀ scope row, batchRow scope db = some row →
    ∃ row', batchRow scope db' = some row' ∧ (row' = row ∨ row.version < row'.version)

/-- A row that was read is there, unless there is a later version of it. -/
def Seen (db : Db) (scope : String) : Option RateLimitBatchRow → Prop
  | none => True
  | some row => row.scope = scope ∧
      ∃ row', batchRow scope db = some row' ∧ (row' = row ∨ row.version < row'.version)

/-- What was seen stays so when the rows go on. -/
theorem Seen.advances {db db' : Db} {scope : String} {row : Option RateLimitBatchRow}
    (h : Seen db scope row) (hdb : Advances db db') : Seen db' scope row := by
  cases row with
  | none => trivial
  | some row =>
    obtain ⟨hscope, row₁, hrow₁, hlater₁⟩ := h
    obtain ⟨row₂, hrow₂, hlater₂⟩ := hdb scope row₁ hrow₁
    refine ⟨hscope, row₂, hrow₂, ?_⟩
    rcases hlater₂ with rfl | hlt
    · exact hlater₁
    · rcases hlater₁ with rfl | hlt₁
      · exact Or.inr hlt
      · exact Or.inr (lt_trans hlt₁ hlt)

/-- What follows a write. -/
def afterWrite (inputs : List RateLimitInput) (attempts : Nat) (counts : Entries Nat)
    (changes : Nat) : LimitCall RateLimitBatchReply :=
  if changes > 0 then .ret (.ok (.allowed counts)) else attemptBatch inputs attempts

/-- Where a call stands, with its readings of the clock since its last read of the row. -/
inductive Stage (inputs : List RateLimitInput) (db : Db) :
    List Instant → LimitCall RateLimitBatchReply → Prop
  | start {readings : List Instant} (attempts : Nat) :
      Stage inputs db readings (.call (.selectBatch (batchScope inputs)) fun row =>
        .call .now fun current => decideBatch inputs row current (attemptBatch inputs attempts))
  | read (attempts : Nat) (row : Option RateLimitBatchRow) (seen : Seen db (batchScope inputs) row) :
      Stage inputs db [] (.call .now fun current =>
        decideBatch inputs row current (attemptBatch inputs attempts))
  | decided (attempts : Nat) (row : Option RateLimitBatchRow) (decided : Instant)
      (counts : Entries Nat) (states : List RateLimitState) (seen : Seen db (batchScope inputs) row)
      (allowed : decision inputs row decided = .allowed counts states) :
      Stage inputs db [decided] (.call .now fun timestamp =>
        writeBatch (batchScope inputs) row states timestamp (afterWrite inputs attempts counts))
  | updating (attempts : Nat) (row : RateLimitBatchRow) (decided stamped : Instant)
      (counts : Entries Nat) (states : List RateLimitState)
      (seen : Seen db (batchScope inputs) (some row))
      (allowed : decision inputs (some row) decided = .allowed counts states) :
      Stage inputs db [decided, stamped]
        (.call (.updateBatch states (row.version + 1) stamped (batchScope inputs) row.version)
          (afterWrite inputs attempts counts))
  | inserting (attempts : Nat) (decided stamped : Instant) (counts : Entries Nat)
      (states : List RateLimitState) (allowed : decision inputs none decided = .allowed counts states) :
      Stage inputs db [decided, stamped]
        (.call (.insertBatch (.first (batchScope inputs) states stamped))
          (afterWrite inputs attempts counts))
  | returned {readings : List Instant} {reply : Except ErrorText RateLimitBatchReply}
      (contended : ∀ text, reply = .error text → text = "rate limit batch contention") :
      Stage inputs db readings (.ret reply)

section Stage

variable {db db' : Db} {inputs : List RateLimitInput} {readings : List Instant} {c : LimitStep}
  {k : c.Answer → LimitCall RateLimitBatchReply}

theorem stage_attempt (inputs : List RateLimitInput) (db : Db) (readings : List Instant)
    (attempts : Nat) : Stage inputs db readings (attemptBatch inputs attempts) := by
  cases attempts with
  | zero => exact .returned fun text h => (Except.error.inj h).symm
  | succ attempts => exact .start attempts

theorem Stage.advances {p : LimitCall RateLimitBatchReply} (h : Stage inputs db readings p)
    (hdb : Advances db db') : Stage inputs db' readings p := by
  cases h with
  | start attempts => exact .start attempts
  | read attempts row seen => exact .read attempts row (seen.advances hdb)
  | decided attempts row decided counts states seen allowed =>
    exact .decided attempts row decided counts states (seen.advances hdb) allowed
  | updating attempts row decided stamped counts states seen allowed =>
    exact .updating attempts row decided stamped counts states (seen.advances hdb) allowed
  | inserting attempts decided stamped counts states allowed =>
    exact .inserting attempts decided stamped counts states allowed
  | returned contended => exact .returned contended

theorem advances_refl (db : Db) : Advances db db := fun _ row h => ⟨row, h, Or.inl rfl⟩

/-- An update takes its row to the next version. -/
theorem advances_update (states : List RateLimitState) (now : Instant) (scope : String)
    (expected : Nat) : Advances db { db with
      rateLimitBatches :=
        (updateBatch states (expected + 1) now scope expected db.rateLimitBatches).1 } := by
  intro other row hrow
  have hkeeps : ∀ r : RateLimitBatchRow, (r.replace states (expected + 1) now).scope = r.scope :=
    fun _ => rfl
  have hlookup := Table.lookup_update (t := db.rateLimitBatches) (p := fun row : RateLimitBatchRow =>
    row.scope = scope && row.version = expected) hkeeps other
  refine ⟨_, hlookup.trans (congrArg _ hrow), ?_⟩
  dsimp only
  split
  · next hmet =>
    simp only [Bool.and_eq_true, decide_eq_true_eq] at hmet
    refine Or.inr ?_
    show row.version < expected + 1
    omega
  · exact Or.inl rfl

/-- An insert touches no row. -/
theorem advances_insert (new : RateLimitBatchRow) :
    Advances db { db with rateLimitBatches := (insertBatch new db.rateLimitBatches).1 } := by
  intro scope row hrow
  refine ⟨row, ?_, Or.inl rfl⟩
  unfold insertBatch
  cases hins : db.rateLimitBatches.insert? new with
  | none => exact hrow
  | some batches =>
    have hne : new.scope ≠ scope := by
      rintro rfl
      rw [Table.insert?_of_lookup_eq_some RateLimitBatchRow.isKey_scope hrow] at hins
      cases hins
    exact (Table.lookup_insert? RateLimitBatchRow.isKey_scope hins scope).trans (by rwa [if_neg hne])

/-- No step of a call takes a row back to an earlier version. -/
theorem stage_advances (h : Stage inputs db readings (.call c k)) (now : Instant) :
    Advances db (serveLimits now db c).1 := by
  cases h with
  | start attempts => exact advances_refl db
  | read attempts row seen => exact advances_refl db
  | decided attempts row decided counts states seen allowed => exact advances_refl db
  | updating attempts row decided stamped counts states seen allowed =>
    exact advances_update states stamped _ row.version
  | inserting attempts decided stamped counts states allowed =>
    exact advances_insert _

theorem stage_afterWrite (inputs : List RateLimitInput) (db : Db) (readings : List Instant)
    (attempts : Nat) (counts : Entries Nat) (changes : Nat) :
    Stage inputs db readings (afterWrite inputs attempts counts changes) := by
  unfold afterWrite
  split
  · exact .returned fun text h => by cases h
  · exact stage_attempt inputs db readings attempts

/-- A step takes a call to its next stage. -/
theorem stage_step (h : Stage inputs db readings (.call c k)) (now : Instant) :
    Stage inputs (serveLimits now db c).1
      (clockNote readings db c (serveLimits now db c).2 (serveLimits now db c).1)
      (k (serveLimits now db c).2) := by
  cases h with
  | start attempts =>
    refine .read attempts _ ?_
    show Seen db (batchScope inputs) (batchRow (batchScope inputs) db)
    cases hrow : batchRow (batchScope inputs) db with
    | none => trivial
    | some row => exact ⟨Table.lookup_key hrow, row, hrow, Or.inl rfl⟩
  | read attempts row seen =>
    show Stage inputs db [now] (decideBatch inputs row now (attemptBatch inputs attempts))
    cases hdecision : decision inputs row now with
    | rejected counts states retryAt =>
      rw [decision] at hdecision
      simp only [decideBatch, hdecision]
      exact .returned fun text h => by cases h
    | allowed counts states =>
      have hdecided := hdecision
      rw [decision] at hdecision
      simp only [decideBatch, hdecision]
      exact .decided attempts row now counts states seen hdecided
  | decided attempts row decided counts states seen allowed =>
    show Stage inputs db [decided, now]
      (writeBatch (batchScope inputs) row states now (afterWrite inputs attempts counts))
    cases row with
    | none => exact .inserting attempts decided now counts states allowed
    | some row => exact .updating attempts row decided now counts states seen allowed
  | updating attempts row decided stamped counts states seen allowed =>
    exact stage_afterWrite inputs _ _ attempts counts _
  | inserting attempts decided stamped counts states allowed =>
    exact stage_afterWrite inputs _ _ attempts counts _

end Stage

/-- What holds in every run: each call stands at one of its stages. -/
def batchOutline (calls : ℕ → Option (List RateLimitInput)) :
    ProofOutline (ι := ℕ) (α := Except ErrorText RateLimitBatchReply) serveLimits clockNote where
  admits _ _ := True
  shared _ := True
  at_ i db readings p := ∃ inputs, calls i = some inputs ∧ Stage inputs db readings p ∧
    (inputs = [] → p = .ret (.ok (.allowed [])))
  own _ _ now _ _ _ _ _ hstage := by
    obtain ⟨inputs, hcall, hstage, hempty⟩ := hstage
    exact ⟨trivial, inputs, hcall, stage_step hstage now, fun h => by cases hempty h⟩
  others _ _ now _ _ _ _ _ _ _ _ hstage _ hother := by
    obtain ⟨_, -, hstage, -⟩ := hstage
    obtain ⟨inputs, hcall, hother, hempty⟩ := hother
    exact ⟨inputs, hcall, hother.advances (stage_advances hstage now), hempty⟩

/-- At the start every call is at its first stage. -/
theorem batchOutline_start (db : Db) (calls : ℕ → Option (List RateLimitInput)) :
    (batchOutline calls).Holds (BatchRace.start db calls) := by
  refine ⟨trivial, fun i p hp => ?_⟩
  obtain ⟨inputs, hcall, rfl⟩ := Option.map_eq_some_iff.mp hp
  refine ⟨inputs, hcall, ?_, fun h => by rw [h]; rfl⟩
  unfold consumeRateLimits
  split
  · exact .returned fun text h => by cases h
  · exact stage_attempt inputs db [] 5

theorem batchOutline_run (db : Db) (calls : ℕ → Option (List RateLimitInput))
    (steps : List (ℕ × Instant)) :
    (batchOutline calls).Holds (batchMachine.run (BatchRace.start db calls) steps) :=
  ProofOutline.run (batchOutline_start db calls) (Machine.admits_true steps)

/-! ## Turns -/

/-- The inputs of a call. -/
def inputsOf (calls : ℕ → Option (List RateLimitInput)) (i : ℕ) : List RateLimitInput :=
  (calls i).getD []

/-- A call that returns a result takes its turn at one of its own steps. -/
structure Turn where
  call : ℕ
  position : ℕ
  decided : Instant
  stamped : Instant

/-- The turn as an input of the calls one at a time. -/
def Turn.input (calls : ℕ → Option (List RateLimitInput)) (turn : Turn) :
    List RateLimitInput × Instant × Instant :=
  (inputsOf calls turn.call, turn.decided, turn.stamped)

variable (calls : ℕ → Option (List RateLimitInput))

/-- The call has read the row, and returns at its next step, when the clock reads `current`. -/
def Due (w : BatchRace) (steps : List (ℕ × Instant)) (i : ℕ) (current : Instant)
    (reply : RateLimitBatchReply) : Prop :=
  w.notes i = [] ∧ steps.find? (fun s => s.1 = i) = some (i, current) ∧
    ∃ k, w.pool.procs i = some (.call .now k) ∧ k current = .ret (.ok reply)

/--
The turns of a run, the first of its steps being the one at position `n`. A step is a turn of its
call, which does alone what the step does and returns what the call returns, at once or, where it is
`Due`, at its next step; or it leaves the rows as they are.
-/
inductive Ordered : ℕ → BatchRace → List (ℕ × Instant) → List Turn → Prop
  | nil {n : ℕ} {w : BatchRace} : Ordered n w [] []
  | silent {n : ℕ} {w : BatchRace} {s : ℕ × Instant} {rest : List (ℕ × Instant)} {turns : List Turn}
      (shared : (batchMachine.next w s).pool.shared = w.pool.shared)
      (replied : ∀ reply, (batchMachine.next w s).result s.1 = some (.ok reply) →
        w.result s.1 = some (.ok reply) ∨ ∃ current, Due w (s :: rest) s.1 current reply)
      (notDue : ∀ current reply, ¬ Due (batchMachine.next w s) rest s.1 current reply)
      (tail : Ordered (n + 1) (batchMachine.next w s) rest turns) : Ordered n w (s :: rest) turns
  | turn {n : ℕ} {w : BatchRace} {s : ℕ × Instant} {rest : List (ℕ × Instant)} {turns : List Turn}
      {decided stamped : Instant} {reply : RateLimitBatchReply}
      (alone : aloneMachine.step w.pool.shared (inputsOf calls s.1, decided, stamped) =
        ((batchMachine.next w s).pool.shared, .ok reply))
      (pending : w.result s.1 = none)
      (notDue : ∀ current reply, ¬ Due w (s :: rest) s.1 current reply)
      (ends : ((batchMachine.next w s).result s.1 = some (.ok reply) ∧
          (batchMachine.next w s).notes s.1 = [decided, stamped]) ∨
        (decided = stamped ∧ Due (batchMachine.next w s) rest s.1 decided reply))
      (tail : Ordered (n + 1) (batchMachine.next w s) rest turns) :
      Ordered n w (s :: rest) (⟨s.1, n, decided, stamped⟩ :: turns)

variable {calls} {w : BatchRace} {n : ℕ} {steps : List (ℕ × Instant)} {turns : List Turn}

/-- The rows of the race are those of the turns alone. -/
theorem Ordered.rows (h : Ordered calls n w steps turns) :
    aloneMachine.run w.pool.shared (turns.map (Turn.input calls)) =
      (batchMachine.run w steps).pool.shared := by
  induction h with
  | nil => rfl
  | silent shared replied notDue tail ih =>
    rw [← shared]
    exact ih
  | @turn n w s rest turns decided stamped reply alone pending notDue ends tail ih =>
    rw [List.map_cons, Machine.run_cons]
    have hnext : aloneMachine.next w.pool.shared (Turn.input calls ⟨s.1, n, decided, stamped⟩) =
        (batchMachine.next w s).pool.shared := congrArg Prod.fst alone
    rw [hnext]
    exact ih

/-- Turns are taken at steps of their calls, one after the other. -/
theorem Ordered.positions (h : Ordered calls n w steps turns) :
    (∀ turn ∈ turns, ∃ m now, turn.position = n + m ∧ steps[m]? = some (turn.call, now)) ∧
      turns.Pairwise fun a b => a.position < b.position := by
  induction h with
  | nil => exact ⟨fun _ h => absurd h List.not_mem_nil, List.Pairwise.nil⟩
  | silent shared replied notDue tail ih =>
    refine ⟨fun turn hturn => ?_, ih.2⟩
    obtain ⟨m, now, hposition, hstep⟩ := ih.1 turn hturn
    exact ⟨m + 1, now, by omega, hstep⟩
  | @turn n w s rest turns decided stamped reply alone pending notDue ends tail ih =>
    refine ⟨fun turn hturn => ?_, List.pairwise_cons.mpr ⟨fun turn hturn => ?_, ih.2⟩⟩
    · rcases List.mem_cons.mp hturn with rfl | hturn
      · exact ⟨0, s.2, rfl, rfl⟩
      · obtain ⟨m, now, hposition, hstep⟩ := ih.1 turn hturn
        exact ⟨m + 1, now, by omega, hstep⟩
    · obtain ⟨m, now, hposition, -⟩ := ih.1 turn hturn
      show n < turn.position
      omega

/-- A call that has returned takes no more notes. -/
theorem notes_step {i : ℕ} (h : w.result i ≠ none) (s : ℕ × Instant) :
    (batchMachine.next w s).notes i = w.notes i := by
  obtain ⟨j, now⟩ := s
  show (w.step serveLimits clockNote (j, now)).notes i = w.notes i
  by_cases hj : i = j
  · subst hj
    obtain ⟨reply, hreply⟩ := Option.ne_none_iff_exists'.mp h
    rw [Watched.step_idle now (by simp [Watched.result_eq_some.mp hreply])]
  · exact Watched.step_notes_of_ne hj now

/-- A call that has ended reads the clock no more. -/
theorem notes_run {i : ℕ} {reply : Except ErrorText RateLimitBatchReply}
    (h : w.result i = some reply) (steps : List (ℕ × Instant)) :
    (batchMachine.run w steps).notes i = w.notes i := by
  induction steps generalizing w with
  | nil => rfl
  | cons s steps ih =>
    have hnone : w.result i ≠ none := by
      rw [h]
      exact Option.some_ne_none reply
    have hnext : (batchMachine.next w s).result i = some reply := Watched.result_step h s
    rw [Machine.run_cons, ih hnext, notes_step hnone s]

/-- The step of a call that is due: it is refused. -/
theorem Due.step {i : ℕ} {current : Instant} {reply : RateLimitBatchReply} {rest : List (ℕ × Instant)}
    {now : Instant} (h : Due w ((i, now) :: rest) i current reply) :
    now = current ∧ (batchMachine.next w (i, now)).result i = some (.ok reply) ∧
      (batchMachine.next w (i, now)).notes i = [current] := by
  obtain ⟨hnotes, hfind, k, hproc, hreturns⟩ := h
  have hnow : now = current := by simpa using hfind
  subst hnow
  refine ⟨rfl, Watched.result_eq_some.mpr ?_, ?_⟩
  · show (w.step serveLimits clockNote (i, now)).pool.procs i = _
    rw [Watched.step_procs_self hproc now, ← hreturns]
    rfl
  · show (w.step serveLimits clockNote (i, now)).notes i = _
    rw [Watched.step_notes_self hproc now, hnotes]
    rfl

/-- Steps of others make no difference to whether a call is due. -/
theorem due_next {i : ℕ} {s : ℕ × Instant} (hne : i ≠ s.1) {current : Instant}
    {reply : RateLimitBatchReply} {rest : List (ℕ × Instant)} :
    Due (batchMachine.next w s) rest i current reply ↔
      Due w (s :: rest) i current reply := by
  have hnotes : (batchMachine.next w s).notes i = w.notes i := Watched.step_notes_of_ne hne s.2
  have hprocs : (batchMachine.next w s).pool.procs i = w.pool.procs i :=
    Watched.step_procs_of_ne hne s.2
  have hfind : (s :: rest).find? (fun later => later.1 = i) =
      rest.find? (fun later => later.1 = i) := List.find?_cons_of_neg (by simpa using hne.symm)
  rw [Due, Due, hnotes, hprocs, hfind]

/-- A call that is due is refused. -/
theorem Due.result {i : ℕ} {current : Instant} {reply : RateLimitBatchReply}
    (h : Due w steps i current reply) :
    (batchMachine.run w steps).result i = some (.ok reply) ∧
      (batchMachine.run w steps).notes i = [current] := by
  induction steps generalizing w with
  | nil =>
    obtain ⟨-, hfind, -⟩ := h
    cases hfind
  | cons s rest ih =>
    by_cases hi : i = s.1
    · obtain ⟨j, now⟩ := s
      obtain rfl : i = j := hi
      obtain ⟨-, hresult, hnotes⟩ := h.step
      exact ⟨Watched.result_run hresult rest, (notes_run hresult rest).trans hnotes⟩
    · exact ih ((due_next hi).mpr h)

/-- A call that has ended, or is due, has ended or is due after each step. -/
theorem closed_next {i : ℕ} {s : ℕ × Instant} {rest : List (ℕ × Instant)}
    (h : w.result i ≠ none ∨ ∃ current reply, Due w (s :: rest) i current reply) :
    (batchMachine.next w s).result i ≠ none ∨
      ∃ current reply, Due (batchMachine.next w s) rest i current reply := by
  rcases h with hdone | ⟨current, reply, hdue⟩
  · obtain ⟨reply, hreply⟩ := Option.ne_none_iff_exists'.mp hdone
    have hnext : (batchMachine.next w s).result i = some reply := Watched.result_step hreply s
    rw [hnext]
    exact Or.inl (Option.some_ne_none _)
  · by_cases hi : i = s.1
    · obtain ⟨j, now⟩ := s
      obtain rfl : i = j := hi
      rw [hdue.step.2.1]
      exact Or.inl (Option.some_ne_none _)
    · exact Or.inr ⟨current, reply, (due_next hi).mpr hdue⟩

/-- Every result is that of a turn, unless the call was about to return it. -/
theorem Ordered.replies (h : Ordered calls n w steps turns) {i : ℕ} {reply : RateLimitBatchReply}
    (hreply : (batchMachine.run w steps).result i = some (.ok reply)) :
    w.result i = some (.ok reply) ∨ (∃ current, Due w steps i current reply) ∨
      ∃ pre turn post, turns = pre ++ turn :: post ∧ turn.call = i ∧
        aloneMachine.reply (aloneMachine.run w.pool.shared (pre.map (Turn.input calls)))
          (turn.input calls) = .ok reply := by
  induction h with
  | nil => exact Or.inl hreply
  | @silent n w s rest turns shared replied notDue tail ih =>
    rcases ih hreply with hdone | ⟨current, hdue⟩ | ⟨pre, turn, post, hturns, hcall, halone⟩
    · by_cases hi : i = s.1
      · rw [hi] at hdone ⊢
        rcases replied reply hdone with hold | hdue
        · exact Or.inl hold
        · exact Or.inr (Or.inl hdue)
      · exact Or.inl ((Watched.result_step_of_ne hi s.2).symm.trans hdone)
    · by_cases hi : i = s.1
      · rw [hi] at hdue
        exact absurd hdue (notDue current reply)
      · exact Or.inr (Or.inl ⟨current, (due_next hi).mp hdue⟩)
    · exact Or.inr (Or.inr ⟨pre, turn, post, hturns, hcall, by rwa [shared] at halone⟩)
  | @turn n w s rest turns decided stamped own alone pending notDue ends tail ih =>
    by_cases hi : i = s.1
    · -- The turn of the call itself.
      refine Or.inr (Or.inr ⟨[], _, turns, rfl, hi.symm, ?_⟩)
      have hown : (batchMachine.run w (s :: rest)).result s.1 = some (.ok own) := by
        rcases ends with ⟨hdone, -⟩ | ⟨-, hdue⟩
        · exact Watched.result_run hdone rest
        · exact hdue.result.1
      rw [hi, hown] at hreply
      rw [← Except.ok.inj (Option.some.inj hreply)]
      exact congrArg Prod.snd alone
    · rcases ih hreply with hdone | ⟨current, hdue⟩ | ⟨pre, turn, post, hturns, hcall, halone⟩
      · exact Or.inl ((Watched.result_step_of_ne hi s.2).symm.trans hdone)
      · exact Or.inr (Or.inl ⟨current, (due_next hi).mp hdue⟩)
      · refine Or.inr (Or.inr ⟨_ :: pre, turn, post, by rw [hturns]; rfl, hcall, ?_⟩)
        have hnext : aloneMachine.next w.pool.shared
            (Turn.input calls ⟨s.1, n, decided, stamped⟩) = (batchMachine.next w s).pool.shared :=
          congrArg Prod.fst alone
        rwa [List.map_cons, Machine.run_cons, hnext]

/-- A call that has ended, or is due, takes no turn any more. -/
theorem Ordered.closed (h : Ordered calls n w steps turns) {i : ℕ}
    (hclosed : w.result i ≠ none ∨ ∃ current reply, Due w steps i current reply) :
    ∀ turn ∈ turns, turn.call ≠ i := by
  induction h with
  | nil => exact fun _ h => absurd h List.not_mem_nil
  | @silent n w s rest turns shared replied notDue tail ih => exact ih (closed_next hclosed)
  | @turn n w s rest turns decided stamped own alone pending notDue ends tail ih =>
    intro turn hturn
    rcases List.mem_cons.mp hturn with rfl | hturn
    · rintro rfl
      rcases hclosed with hdone | ⟨current, reply, hdue⟩
      · exact hdone pending
      · exact notDue current reply hdue
    · exact ih (closed_next hclosed) turn hturn

/-- Each call takes one turn, and returns what it did there. -/
theorem Ordered.once (h : Ordered calls n w steps turns) :
    (turns.Pairwise fun a b => a.call ≠ b.call) ∧
      ∀ turn ∈ turns, ∃ reply, (batchMachine.run w steps).result turn.call = some (.ok reply) ∧
        ((batchMachine.run w steps).notes turn.call = [turn.decided, turn.stamped] ∨
          (batchMachine.run w steps).notes turn.call = [turn.decided] ∧
            turn.stamped = turn.decided) := by
  induction h with
  | nil => exact ⟨List.Pairwise.nil, fun _ h => absurd h List.not_mem_nil⟩
  | silent shared replied notDue tail ih => exact ih
  | @turn n w s rest turns decided stamped own alone pending notDue ends tail ih =>
    refine ⟨List.pairwise_cons.mpr ⟨fun turn hturn => ?_, ih.1⟩, fun turn hturn => ?_⟩
    · refine (tail.closed ?_ turn hturn).symm
      rcases ends with ⟨hdone, -⟩ | ⟨-, hdue⟩
      · rw [hdone]
        exact Or.inl (Option.some_ne_none _)
      · exact Or.inr ⟨decided, own, hdue⟩
    · rcases List.mem_cons.mp hturn with rfl | hturn
      · rcases ends with ⟨hdone, hnotes⟩ | ⟨hsame, hdue⟩
        · exact ⟨own, Watched.result_run hdone rest, Or.inl ((notes_run hdone rest).trans hnotes)⟩
        · exact ⟨own, hdue.result.1, Or.inr ⟨hdue.result.2, hsame.symm⟩⟩
      · exact ih.2 turn hturn

theorem inputsOf_eq {i : ℕ} {inputs : List RateLimitInput} (h : calls i = some inputs) :
    inputsOf calls i = inputs := by rw [inputsOf, h]; rfl

/-- Not due: the call does not stand between its read and its decision. -/
theorem not_due_of_notes {s : List (ℕ × Instant)} {i : ℕ} (h : w.notes i ≠ []) (current : Instant)
    (reply : RateLimitBatchReply) : ¬ Due w s i current reply := fun hdue => h hdue.1

theorem not_due_of_proc {s : List (ℕ × Instant)} {i : ℕ}
    (h : ∀ k, w.pool.procs i ≠ some (.call .now k)) (current : Instant)
    (reply : RateLimitBatchReply) : ¬ Due w s i current reply := by
  rintro ⟨-, -, k, hproc, -⟩
  exact h k hproc

/-- A decision that returns at once is a refusal. -/
theorem decideBatch_eq_ret {inputs : List RateLimitInput} {row : Option RateLimitBatchRow}
    {current : Instant} {again : LimitCall RateLimitBatchReply} {reply : RateLimitBatchReply}
    (h : decideBatch inputs row current again = .ret (.ok reply)) :
    ∃ counts states retryAt, decision inputs row current = .rejected counts states retryAt ∧
      reply = .refused counts retryAt := by
  unfold decideBatch at h
  rw [decision]
  split at h
  · next counts states retryAt hdecision =>
    exact ⟨counts, states, retryAt, hdecision, by simpa using h.symm⟩
  · cases h

theorem attemptBatch_ne_ok (inputs : List RateLimitInput) (attempts : Nat)
    (reply : RateLimitBatchReply) : attemptBatch inputs attempts ≠ .ret (.ok reply) := by
  cases attempts <;> exact fun h => by cases h

/-- An `UPDATE` that changes a row meets the very row that was read. -/
theorem Seen.of_changes {db : Db} {scope : String} {row : RateLimitBatchRow}
    {states : List RateLimitState} {version : Nat} {now : Instant} (h : Seen db scope (some row))
    (hchanges : (updateBatch states version now scope row.version db.rateLimitBatches).2 > 0) :
    batchRow scope db = some row := by
  obtain ⟨-, row', hrow', hlater⟩ := h
  obtain ⟨met, hmem, hmet⟩ := List.countP_pos_iff.mp hchanges
  simp only [Bool.and_eq_true, decide_eq_true_eq] at hmet
  have hsame : row' = met := Table.eq_of_conflict (Table.lookup_mem hrow') hmem
    (RateLimitBatchRow.isKey_scope _ _ ((Table.lookup_key hrow').trans hmet.1.symm))
  rcases hlater with rfl | hlt
  · exact hrow'
  · rw [hsame, hmet.2] at hlt
    exact absurd hlt (lt_irrefl _)

/-- An update that meets no row changes none. -/
theorem updateBatch_none {states : List RateLimitState} {version expected : Nat} {now : Instant}
    {scope : String} {batches : Table RateLimitBatchRow}
    (h : ¬ (updateBatch states version now scope expected batches).2 > 0) :
    (updateBatch states version now scope expected batches).1 = batches := by
  have hzero := List.countP_eq_zero.mp (Nat.le_zero.mp (not_lt.mp h))
  refine Table.ext ?_
  show List.map _ _ = _
  conv_rhs => rw [← List.map_id batches.rows]
  exact List.map_congr_left fun row hrow => if_neg (hzero row hrow)

theorem insertBatch_changes {row : RateLimitBatchRow} {batches : Table RateLimitBatchRow}
    (h : (insertBatch row batches).2 > 0) :
    batches.lookup RateLimitBatchRow.scope row.scope = none := by
  by_contra hsome
  obtain ⟨old, hold⟩ := Option.ne_none_iff_exists'.mp hsome
  rw [insertBatch, Table.insert?_of_lookup_eq_some RateLimitBatchRow.isKey_scope hold] at h
  exact absurd h (lt_irrefl 0)

theorem insertBatch_none {row : RateLimitBatchRow} {batches : Table RateLimitBatchRow}
    (h : ¬ (insertBatch row batches).2 > 0) : (insertBatch row batches).1 = batches := by
  unfold insertBatch at h ⊢
  split at h
  · exact absurd Nat.one_pos h
  · rfl

section Steps

variable {i : ℕ} {now : Instant} {rest : List (ℕ × Instant)} {inputs : List RateLimitInput}
  (hinputs : calls i = some inputs) (hpending : w.result i = none)
  (htail : Ordered calls (n + 1) (batchMachine.next w (i, now)) rest turns)

include hinputs hpending htail

/-- The read of a row is the turn of a call that is refused for it, and silent otherwise. -/
theorem ordered_read (hne : inputs ≠ []) {again : LimitCall RateLimitBatchReply}
    (hquiet : ∀ k, w.pool.procs i ≠ some (.call .now k))
    (hshared : (batchMachine.next w (i, now)).pool.shared = w.pool.shared)
    (hproc : (batchMachine.next w (i, now)).pool.procs i = some (.call .now fun current =>
      decideBatch inputs (batchRow (batchScope inputs) w.pool.shared) current again)) :
    ∃ turns, Ordered calls n w ((i, now) :: rest) turns := by
  by_cases hdue : ∃ current reply, Due (batchMachine.next w (i, now)) rest i current reply
  · obtain ⟨current, reply, hdue⟩ := hdue
    have hreads := hdue
    obtain ⟨-, -, k, hproc', hreturns⟩ := hreads
    obtain rfl : _ = k := by simpa using hproc.symm.trans hproc'
    obtain ⟨counts, states, retryAt, hdecision, rfl⟩ := decideBatch_eq_ret hreturns
    have halone : aloneMachine.step w.pool.shared (inputsOf calls i, current, current) =
        ((batchMachine.next w (i, now)).pool.shared, .ok (.refused counts retryAt)) := by
      rw [inputsOf_eq hinputs, hshared]
      exact alone_rejected hne hdecision
    exact ⟨_, .turn halone hpending (not_due_of_proc hquiet) (Or.inr ⟨rfl, hdue⟩) htail⟩
  · push Not at hdue
    refine ⟨turns, .silent hshared (fun reply h => ?_) hdue htail⟩
    rw [Watched.result_eq_some, hproc] at h
    cases h

/-- The write of a row is the turn of its call if it changes the row, and silent otherwise. -/
theorem ordered_write {decided stamped : Instant} {attempts changes : ℕ} {counts : Entries Nat}
    (hopen : ∀ k, w.pool.procs i ≠ some (.call .now k))
    (hnotes : (batchMachine.next w (i, now)).notes i = [decided, stamped])
    (hproc : (batchMachine.next w (i, now)).pool.procs i =
      some (afterWrite inputs attempts counts changes))
    (halone : changes > 0 → aloneMachine.step w.pool.shared (inputs, decided, stamped) =
      ((batchMachine.next w (i, now)).pool.shared, .ok (.allowed counts)))
    (hkept : ¬ changes > 0 → (batchMachine.next w (i, now)).pool.shared = w.pool.shared) :
    ∃ turns, Ordered calls n w ((i, now) :: rest) turns := by
  by_cases hchanges : changes > 0
  · have hturn := halone hchanges
    rw [← inputsOf_eq hinputs] at hturn
    refine ⟨_, .turn hturn hpending (not_due_of_proc hopen) (Or.inl ⟨?_, hnotes⟩) htail⟩
    rw [Watched.result_eq_some, hproc]
    exact congrArg some (if_pos hchanges)
  · refine ⟨turns, .silent (hkept hchanges) (fun reply h => ?_) (not_due_of_notes ?_) htail⟩
    · rw [Watched.result_eq_some, hproc] at h
      exact absurd ((if_neg hchanges).symm.trans (Option.some.inj h))
        (attemptBatch_ne_ok inputs attempts reply)
    · rw [hnotes]
      exact List.cons_ne_nil decided _

end Steps

/-- **Every run has its turns.** -/
theorem ordered (hw : (batchOutline calls).Holds w) (n : ℕ) (steps : List (ℕ × Instant)) :
    ∃ turns, Ordered calls n w steps turns := by
  induction steps generalizing w n with
  | nil => exact ⟨[], .nil⟩
  | cons s rest ih =>
    obtain ⟨turns, htail⟩ := ih (ProofOutline.next hw (s := s) trivial) (n + 1)
    obtain ⟨i, now⟩ := s
    by_cases hcall : ∃ c k, w.pool.procs i = some (.call c k)
    · obtain ⟨c, k, hcall⟩ := hcall
      obtain ⟨inputs, hinputs, hstage, hempty⟩ := hw.2 i _ hcall
      have hne : inputs ≠ [] := fun h => by cases hempty h
      have hpending : w.result i = none := by simp [Watched.result, hcall]
      have hshared : (batchMachine.next w (i, now)).pool.shared =
          (serveLimits now w.pool.shared c).1 := Watched.step_shared hcall now
      have hproc : (batchMachine.next w (i, now)).pool.procs i =
          some (k (serveLimits now w.pool.shared c).2) := Watched.step_procs_self hcall now
      have hnotes : (batchMachine.next w (i, now)).notes i = clockNote (w.notes i) w.pool.shared c
          (serveLimits now w.pool.shared c).2 (serveLimits now w.pool.shared c).1 :=
        Watched.step_notes_self hcall now
      generalize hreadings : w.notes i = readings at hstage hnotes
      -- By the stage of the call: it reads the row, decides, takes a time stamp, or writes.
      cases hstage with
      | start attempts =>
        exact ordered_read hinputs hpending htail hne
          (fun k h => by rw [hcall] at h; cases h) hshared hproc
      | read attempts row seen =>
        refine ⟨turns, .silent hshared (fun reply h => ?_) (not_due_of_notes ?_) htail⟩
        · rw [Watched.result_eq_some, hproc] at h
          exact Or.inr ⟨now, hreadings, by simp, _, hcall, Option.some.inj h⟩
        · rw [hnotes]
          exact List.cons_ne_nil now []
      | decided attempts row decided counts states seen allowed =>
        refine ⟨turns, .silent hshared (fun reply h => ?_) (not_due_of_notes ?_) htail⟩
        · rw [Watched.result_eq_some, hproc] at h
          cases row <;> cases h
        · rw [hnotes]
          exact List.cons_ne_nil decided _
      | updating attempts row decided stamped counts states seen allowed =>
        refine ordered_write hinputs hpending htail (fun k h => by rw [hcall] at h; cases h) hnotes
          hproc (fun hchanges => ?_) fun hchanges => ?_
        · have hmet : (updateBatch states (row.version + 1) stamped (batchScope inputs) row.version
              w.pool.shared.rateLimitBatches).2 > 0 := hchanges
          rw [hshared]
          exact alone_update hne (seen.of_changes hmet) allowed
        · rw [hshared]
          exact congrArg (fun rateLimitBatches => { w.pool.shared with rateLimitBatches })
            (updateBatch_none hchanges)
      | inserting attempts decided stamped counts states allowed =>
        refine ordered_write hinputs hpending htail (fun k h => by rw [hcall] at h; cases h) hnotes
          hproc (fun hchanges => ?_) fun hchanges => ?_
        · rw [hshared]
          exact alone_insert hne (insertBatch_changes hchanges) allowed
        · rw [hshared]
          exact congrArg (fun rateLimitBatches => { w.pool.shared with rateLimitBatches })
            (insertBatch_none hchanges)
    · push Not at hcall
      have hsame : batchMachine.next w (i, now) = w := Watched.step_idle now hcall
      refine ⟨turns, .silent (by rw [hsame]) (fun reply h => Or.inl (by rwa [hsame] at h)) ?_ htail⟩
      rw [hsame]
      exact not_due_of_proc fun k => hcall .now k

/-! ## One at a time -/

/-- What the calls of a run return and leave is what they do alone, in the order of the turns. -/
structure Serial (db : Db) (calls : ℕ → Option (List RateLimitInput)) (steps : List (ℕ × Instant))
    (turns : List Turn) : Prop where
  /-- The turns come one after the other, each at a step of its call. -/
  placed : (turns.Pairwise fun a b => a.position < b.position) ∧
    ∀ turn ∈ turns, ∃ now, steps[turn.position]? = some (turn.call, now)
  /-- A call takes one turn. -/
  once : turns.Pairwise fun a b => a.call ≠ b.call
  /-- It decides by the clock as it has read it since its last read of the row. -/
  clock : ∀ turn ∈ turns,
    (batchMachine.run (BatchRace.start db calls) steps).notes turn.call =
        [turn.decided, turn.stamped] ∨
      (batchMachine.run (BatchRace.start db calls) steps).notes turn.call = [turn.decided] ∧
        turn.stamped = turn.decided
  rows : (batchMachine.run (BatchRace.start db calls) steps).pool.shared =
    aloneMachine.run db (turns.map (Turn.input calls))
  /-- Every call that returns a result takes a turn, and returns the result of it. -/
  replies : ∀ i reply, calls i ≠ some [] →
    (batchMachine.run (BatchRace.start db calls) steps).result i = some (.ok reply) →
    ∃ pre turn post, turns = pre ++ turn :: post ∧ turn.call = i ∧
      aloneMachine.reply (aloneMachine.run db (pre.map (Turn.input calls)))
        (turn.input calls) = .ok reply
  /-- A call that has thrown, or has not returned, takes none. -/
  turnless : ∀ i, (∀ reply, (batchMachine.run (BatchRace.start db calls) steps).result i ≠
    some (.ok reply)) → ∀ turn ∈ turns, turn.call ≠ i
  /-- Without inputs, the answer is the same in every state. -/
  empty : ∀ i, calls i = some [] →
    (batchMachine.run (BatchRace.start db calls) steps).result i = some (.ok (.allowed [])) ∧
    ∀ db' decided stamped, aloneMachine.step db' ([], decided, stamped) = (db', .ok (.allowed []))
  /-- What is thrown is contention, and no step of the call has changed a row. -/
  contention : ∀ i text,
    (batchMachine.run (BatchRace.start db calls) steps).result i = some (.error text) →
    text = "rate limit batch contention" ∧
    ∀ pre now post, steps = pre ++ (i, now) :: post →
      (batchMachine.run (BatchRace.start db calls) (pre ++ [(i, now)])).pool.shared =
        (batchMachine.run (BatchRace.start db calls) pre).pool.shared

/-- A step that changes the rows is the last one of its call. -/
theorem step_shared_or_returns (hw : (batchOutline calls).Holds w) (s : ℕ × Instant) :
    (batchMachine.next w s).pool.shared = w.pool.shared ∨
      ∃ reply, (batchMachine.next w s).result s.1 = some (.ok reply) := by
  obtain ⟨turns, h⟩ := ordered hw 0 [s]
  cases h with
  | silent shared replied notDue tail => exact Or.inl shared
  | turn alone pending notDue ends tail =>
    rcases ends with ⟨hdone, -⟩ | ⟨-, -, hfind, -⟩
    · exact Or.inr ⟨_, hdone⟩
    · cases hfind

/-- **The batch limiter is linearizable**, in every interleaving, from every table. -/
theorem consumeRateLimits_serial (db : Db) (calls : ℕ → Option (List RateLimitInput))
    (steps : List (ℕ × Instant)) : ∃ turns, Serial db calls steps turns := by
  have hstart := batchOutline_start db calls
  have hrun := batchOutline_run db calls steps
  obtain ⟨turns, h⟩ := ordered hstart 0 steps
  refine ⟨turns, ⟨⟨h.positions.2, fun turn hturn => ?_⟩, h.once.1, fun turn hturn => ?_,
    h.rows.symm, fun i reply hne hreply => ?_, fun i hnot turn hturn hi => ?_, fun i hi => ?_,
    fun i text herror => ?_⟩⟩
  · obtain ⟨m, now, hposition, hstep⟩ := h.positions.1 turn hturn
    rw [Nat.zero_add] at hposition
    exact ⟨now, by rw [hposition, hstep]⟩
  · obtain ⟨reply, -, hnotes⟩ := h.once.2 turn hturn
    exact hnotes
  · rcases h.replies hreply with hdone | ⟨current, hdue⟩ | hturn
    · -- No call with inputs has returned at the start.
      obtain ⟨inputs, hinputs, hprogram⟩ := Option.map_eq_some_iff.mp
        (Watched.result_eq_some.mp hdone)
      obtain ⟨again, hagain⟩ := consumeRateLimits_of_ne
        (fun h : inputs = [] => hne (by rw [hinputs, h]))
      rw [hagain] at hprogram
      cases hprogram
    · obtain ⟨-, -, k, hproc, -⟩ := hdue
      obtain ⟨inputs, hinputs, hprogram⟩ := Option.map_eq_some_iff.mp hproc
      obtain ⟨again, hagain⟩ := consumeRateLimits_of_ne
        (fun h : inputs = [] => hne (by rw [hinputs, h]))
      rw [hagain] at hprogram
      cases hprogram
    · exact hturn
  · obtain ⟨reply, hreply, -⟩ := h.once.2 turn hturn
    rw [hi] at hreply
    exact hnot reply hreply
  · refine ⟨Watched.result_run (Watched.result_eq_some.mpr ?_) steps, fun _ _ _ => rfl⟩
    show (calls i).map consumeRateLimits = _
    rw [hi]
    rfl
  · obtain ⟨inputs, -, hstage, -⟩ := hrun.2 i _ (Watched.result_eq_some.mp herror)
    refine ⟨?_, fun pre now post hsteps => ?_⟩
    · generalize (batchMachine.run (BatchRace.start db calls) steps).notes i = readings at hstage
      cases hstage with
      | returned contended => exact contended text rfl
    · rw [Machine.run_snoc]
      rcases step_shared_or_returns (batchOutline_run db calls pre) (i, now) with hsame | hreply
      · exact hsame
      · obtain ⟨reply, hreply⟩ := hreply
        have hlast : (batchMachine.run (BatchRace.start db calls) steps).result i =
            some (.ok reply) := by
          rw [hsteps, Machine.run_append, Machine.run_cons]
          exact Watched.result_run hreply post
        rw [herror] at hlast
        cases hlast

end InboxServer.D1
