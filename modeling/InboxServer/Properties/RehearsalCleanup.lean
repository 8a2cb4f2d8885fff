import InboxServer.Release.LegacyExecutor

/-!
# A rollback rehearsal cleans up and reports

A confirmed rehearsal, whatever the runner, the checks, the clock and the removal of the temporary
directory come to.

* `rehearsal_reports` — unless something falsy is thrown, the report is there exactly when nothing
  escapes the two `try` blocks: the removal of the directory is outside of them, and so are most
  readings of the clock
-/

namespace InboxServer.Rehearsal

open Infra Release

abbrev RehearsalEvent := Event RehearsalCall RehearsalCall.Answer

/-! ## What a run has seen -/

/-- The commands that were given to the runner. -/
def commandsIn (trace : List RehearsalEvent) : List ReleaseCommand :=
  trace.filterMap fun
    | ⟨.run command, _⟩ => some command
    | _ => none

/-- What they came to. -/
def outcomesIn (trace : List RehearsalEvent) : List (Except Raised CommandResult) :=
  trace.filterMap fun
    | ⟨.run _, outcome⟩ => some outcome
    | _ => none

/-- A call that went well; a temporary directory that is still there did not. -/
def Passed : RehearsalEvent → Bool
  | ⟨.run _, .ok result⟩ => result.exitCode = 0
  | ⟨.fileExists _, left⟩ => !left
  | ⟨.now _, .ok _⟩ | ⟨.mkdtemp _, .ok _⟩ | ⟨.identityCheck .., .ok _⟩ | ⟨.d1Check .., .ok _⟩
  | ⟨.rm _, .ok _⟩ => true
  | ⟨.run _, .error _⟩ | ⟨.now _, .error _⟩ | ⟨.mkdtemp _, .error _⟩ | ⟨.identityCheck .., .error _⟩
  | ⟨.d1Check .., .error _⟩ | ⟨.rm _, .error _⟩ => false

/--
A failure that no `try` contains: a clock that fails when a step or the cleanup starts, when a
failure is recorded or when the cleanup ends, and a removal that throws.
-/
def Escapes : RehearsalEvent → Bool
  | ⟨.now .rto, _⟩ | ⟨.now (.stepEnd _), _⟩ | ⟨.now _, .ok (some _)⟩ => false
  | ⟨.now _, _⟩ => true
  | ⟨.rm _, .error _⟩ => true
  | _ => false

/-- A failure that the code takes for none: a falsy thrown value, or `NaN` for the RTO. -/
def PassesUnseen : RehearsalEvent → Bool
  | ⟨.now .rto, .ok none⟩ => true
  | ⟨.run _, .error error⟩ | ⟨.now _, .error error⟩ | ⟨.mkdtemp _, .error error⟩
  | ⟨.identityCheck .., .error error⟩ | ⟨.d1Check .., .error error⟩ | ⟨.rm _, .error error⟩ =>
    !error.truthy
  | _ => false

@[simp] theorem commandsIn_nil : commandsIn [] = [] := rfl

@[simp] theorem commandsIn_append (first second : List RehearsalEvent) :
    commandsIn (first ++ second) = commandsIn first ++ commandsIn second :=
  List.filterMap_append

@[simp] theorem outcomesIn_nil : outcomesIn [] = [] := rfl

@[simp] theorem outcomesIn_append (first second : List RehearsalEvent) :
    outcomesIn (first ++ second) = outcomesIn first ++ outcomesIn second :=
  List.filterMap_append

/-- Without commands there are no outcomes. -/
theorem outcomesIn_eq_nil {trace : List RehearsalEvent} (h : commandsIn trace = []) :
    outcomesIn trace = [] := by
  induction trace with
  | nil => rfl
  | cons e trace ih =>
    obtain ⟨call, answer⟩ := e
    cases call with
    | run command => cases h
    | now | mkdtemp | identityCheck | d1Check | rm | fileExists => exact ih h

/-! ## What a rehearsal owes -/

variable (parse : String → Except String Json)

/-- What a step has done that has succeeded: its commands, and the check that is its own. -/
structure Done (context : StepContext) (step : LegacyRehearsalStep) (trace : List RehearsalEvent) :
    Prop where
  ran : commandsIn trace = step.commands
  passed : ∀ e ∈ trace, Passed e
  identity : step.id = .identityEvidence →
    (⟨.identityCheck context.plan.manifest context.repositoryRoot, .ok ()⟩ : RehearsalEvent) ∈ trace
  d1 : step.id = .d1Compatibility → ∃ result : D1CompatibilityResult,
    (⟨.d1Check context.plan.manifest context.repositoryRoot context.tempRoot, .ok result⟩ :
      RehearsalEvent) ∈ trace
  reconciled : step.id = .reconciliation → ∃ results : List CommandResult,
    results.map Except.ok = outcomesIn trace ∧
      assertReconciliation parse context.plan results = .ok ()

/--
The steps of a run: those that have succeeded, each in its part of the trace `before`, and the one
that has failed, if any, in the trace `during`. No step comes after that one.
-/
structure Executed (context : StepContext) (steps : List LegacyRehearsalStep)
    (records : List LegacyRehearsalStepEvidence) (finished : List LegacyRehearsalStep)
    (stopped : Option LegacyRehearsalStep) (before during : List RehearsalEvent) : Prop where
  order : finished ++ stopped.toList <+: steps
  done : ∃ parts, before = parts.flatten ∧ List.Forall₂ (Done parse context) finished parts
  partly : ∀ step ∈ stopped, commandsIn during <+: step.commands
  none_left : stopped = none → finished = steps ∧ during = []
  recorded : records.map (fun record => (record.id, record.status)) =
    finished.map (fun step => (some step.id, RecordStatus.succeeded)) ++
      stopped.toList.map fun step => (some step.id, .failed)

/-- The restore has ended within the bound, counted from the start of the step before it. -/
def RtoHeld (bound : Int) (trace : List RehearsalEvent) (rto : Option TimeValue) : Prop :=
  ∃ start finish : Int,
    (⟨.now (.stepStart .substituteWorkerStop), .ok (some start)⟩ : RehearsalEvent) ∈ trace ∧
      (⟨.now .rto, .ok (some finish)⟩ : RehearsalEvent) ∈ trace ∧
      rto = some (some (finish - start)) ∧ finish - start ≤ bound

/-- The temporary directory is removed when the commands have run, and looked for after that. -/
def Removed (tempRoot : String) (left : Bool) (after : List RehearsalEvent) : Prop :=
  ∃ front finish, after = front ++ [⟨.rm tempRoot, .ok ()⟩, ⟨.fileExists tempRoot, left⟩, finish]

/-- What completed evidence stands for; `after` is the trace of the cleanup. -/
structure Certified (context : StepContext) (trace after : List RehearsalEvent)
    (evidence : LegacyRehearsalEvidence) : Prop where
  passed : ∀ e ∈ trace, Passed e
  identity :
    (⟨.identityCheck context.plan.manifest context.repositoryRoot, .ok ()⟩ : RehearsalEvent) ∈ trace
  d1 : ∃ result : D1CompatibilityResult,
    (⟨.d1Check context.plan.manifest context.repositoryRoot context.tempRoot, .ok result⟩ :
      RehearsalEvent) ∈ trace
  rto : RtoHeld (context.plan.manifest.rtoSeconds * 1000) trace evidence.rtoMilliseconds
  residuals : evidence.residuals = zeroResiduals
  removed : Removed context.tempRoot false after
  /-- The last three cleanup commands list what is left. -/
  nothing_listed : ∀ i ∈ [1, 2, 3], ∃ result : CommandResult,
    (outcomesIn after)[i]? = some (.ok result) ∧ lineCount result.stdout = 0

/-- The rehearsal returns the evidence, or throws a `LegacyRehearsalError` with it. -/
def EndsWith (result : Except RehearsalFailure LegacyRehearsalEvidence)
    (evidence : LegacyRehearsalEvidence) : Prop :=
  result = .ok evidence ∧ evidence.completed ∨
    ∃ message, result = .error (.rehearsal message evidence) ∧ !evidence.completed

/-- The steps up to the first that fails, then the whole cleanup, with evidence of all that. -/
structure Report (context : StepContext) (trace : List RehearsalEvent)
    (result : Except RehearsalFailure LegacyRehearsalEvidence) where
  before : List RehearsalEvent
  during : List RehearsalEvent
  after : List RehearsalEvent
  trace_eq : trace = before ++ during ++ after
  finished : List LegacyRehearsalStep
  stopped : Option LegacyRehearsalStep
  records : List LegacyRehearsalStepEvidence
  executed : Executed parse context context.plan.steps records finished stopped before during
  cleaned : commandsIn after = context.plan.cleanupCommands
  left : Bool
  removed : Removed context.tempRoot left after
  evidence : LegacyRehearsalEvidence
  ending : EndsWith result evidence
  cleanup : LegacyRehearsalStepEvidence
  cleanup_id : cleanup.id = none
  steps_eq : evidence.steps = records ++ [cleanup]
  certified : result = .ok evidence → stopped = none ∧ Certified context trace after evidence

/-- What is thrown as it is is not a report. -/
theorem not_report {context : StepContext} {trace : List RehearsalEvent} {error : Raised} :
    ¬ Nonempty (Report parse context trace (.error (.thrown error))) := by
  rintro ⟨report⟩
  rcases report.ending with ⟨h, -⟩ | ⟨message, h, -⟩ <;> cases h

/-! ## Parts of a step -/

/-- Nothing in the trace escapes. -/
def Contained (trace : List RehearsalEvent) : Prop := ∀ e ∈ trace, Escapes e = false

/-- Nothing in the trace passes unseen. -/
def Noticed (trace : List RehearsalEvent) : Prop := ∀ e ∈ trace, PassesUnseen e = false

theorem Contained.append {first second : List RehearsalEvent} (h : Contained first)
    (h' : Contained second) : Contained (first ++ second) :=
  fun e he => (List.mem_append.mp he).elim (h e) (h' e)

theorem Noticed.left {first second : List RehearsalEvent} (h : Noticed (first ++ second)) :
    Noticed first := fun e he => h e (List.mem_append_left _ he)

theorem Noticed.right {first second : List RehearsalEvent} (h : Noticed (first ++ second)) :
    Noticed second := fun e he => h e (List.mem_append_right _ he)

/-- What a part of a `try` does that has these commands to run, and what it throws, if anything. -/
structure Attempt (commands : List ReleaseCommand) (trace : List RehearsalEvent)
    (thrown : Option Raised) : Prop where
  ran : commandsIn trace <+: commands
  passed : thrown = none → commandsIn trace = commands ∧ ∀ e ∈ trace, Passed e
  truthy : ∀ error ∈ thrown, Noticed trace → error.truthy
  contained : Contained trace

namespace Attempt

variable {commands commands' : List ReleaseCommand} {trace trace' : List RehearsalEvent}
  {thrown : Option Raised} {error : Raised}

theorem nothing : Attempt [] [] none where
  ran := List.prefix_rfl
  passed _ := ⟨rfl, by simp⟩
  truthy := by simp
  contained := by simp [Contained]

/-- Two parts of an attempt, the first of which did not throw. -/
theorem append (h : Attempt commands trace none) (h' : Attempt commands' trace' thrown) :
    Attempt (commands ++ commands') (trace ++ trace') thrown where
  ran := by
    rw [commandsIn_append, (h.passed rfl).1]
    exact (List.prefix_append_right_inj _).mpr h'.ran
  passed hnone := by
    obtain ⟨hran, hpassed⟩ := h.passed rfl
    obtain ⟨hran', hpassed'⟩ := h'.passed hnone
    refine ⟨by rw [commandsIn_append, hran, hran'], fun e he => ?_⟩
    exact (List.mem_append.mp he).elim (hpassed e) (hpassed' e)
  truthy error herror hnoticed := h'.truthy error herror hnoticed.right
  contained := h.contained.append h'.contained

/-- What is thrown keeps the rest from being run. -/
theorem stop (h : Attempt commands trace (some error)) (rest : List ReleaseCommand) :
    Attempt (commands ++ rest) trace (some error) where
  ran := h.ran.trans (List.prefix_append _ _)
  passed := by simp
  truthy := h.truthy
  contained := h.contained

theorem skip (h : Attempt [] trace (some error)) : Attempt commands trace (some error) := by
  simpa using h.stop commands

/-- A call that is no command and goes well. -/
theorem call_ok {e : RehearsalEvent} (hno : commandsIn [e] = []) (hpassed : Passed e)
    (hcontained : Escapes e = false) : Attempt [] [e] none where
  ran := by rw [hno]
  passed _ := ⟨hno, by simpa using hpassed⟩
  truthy := by simp
  contained := by simpa [Contained] using hcontained

/-- A call that is no command, and throws. -/
theorem call_error {e : RehearsalEvent} (hno : commandsIn [e] = [])
    (hunseen : PassesUnseen e = !error.truthy) (hcontained : Escapes e = false) :
    Attempt [] [e] (some error) where
  ran := by rw [hno]
  passed := by simp
  truthy := by
    rintro error ⟨⟩ hnoticed
    have := hnoticed e (by simp)
    simpa [hunseen] using this
  contained := by simpa [Contained] using hcontained

/-- A part without commands, before the rest. -/
theorem before (h : Attempt [] trace none) (h' : Attempt commands' trace' thrown) :
    Attempt commands' (trace ++ trace') thrown := by
  simpa using h.append h'

/-- A part without commands, after the rest. -/
theorem andThen (h : Attempt commands trace none) (h' : Attempt [] trace' thrown) :
    Attempt commands (trace ++ trace') thrown := by
  simpa using h.append h'

end Attempt

/-- What an outcome throws. -/
def thrownIn {α : Type} : Except Raised α → Option Raised
  | .ok _ => none
  | .error error => some error

/-- The commands up to one that fails; what they have come to is what is returned. -/
theorem runs_runCommands {step : LegacyRehearsalStep} {commands : List ReleaseCommand}
    {results : List CommandResult} {trace : List RehearsalEvent}
    {outcome : Except Raised (List CommandResult)}
    (h : (runCommands step commands results).Runs trace outcome) :
    Attempt commands trace (thrownIn outcome) ∧
      ∀ all, outcome = .ok all → all.map Except.ok = results.map Except.ok ++ outcomesIn trace := by
  induction commands generalizing results trace with
  | nil =>
    obtain ⟨rfl, rfl⟩ := Prog.runs_ret.mp h
    exact ⟨.nothing, by rintro all ⟨⟩; simp⟩
  | cons command commands ih =>
    obtain ⟨answer, rest, rfl, hrest⟩ := Prog.runs_call.mp h
    rcases answer with error | result
    · obtain ⟨rfl, rfl⟩ := Prog.runs_ret.mp hrest
      refine ⟨?_, by rintro all ⟨⟩⟩
      exact ⟨List.prefix_append [command] commands, by simp [thrownIn],
        by
          rintro error ⟨⟩ hnoticed
          simpa [PassesUnseen] using hnoticed _ (List.mem_singleton_self _),
        by simp [Contained, Escapes]⟩
    · by_cases hexit : result.exitCode = 0
      · dsimp only at hrest
        rw [if_neg (not_not.mpr hexit)] at hrest
        obtain ⟨hattempt, hall⟩ := ih hrest
        have hone : Attempt [command] [⟨.run command, .ok result⟩] none :=
          ⟨List.prefix_rfl, fun _ => ⟨rfl, by simpa [Passed] using hexit⟩, by simp,
            by simp [Contained, Escapes]⟩
        refine ⟨hone.append hattempt, fun all hok => ?_⟩
        rw [hall all hok, List.map_append, List.append_assoc]
        rfl
      · dsimp only at hrest
        rw [if_pos hexit] at hrest
        obtain ⟨rfl, rfl⟩ := Prog.runs_ret.mp hrest
        refine ⟨?_, by rintro all ⟨⟩⟩
        exact ⟨List.prefix_append [command] commands, by simp [thrownIn],
          by rintro error ⟨⟩ -; rfl, by simp [Contained, Escapes]⟩

/-- The identity is checked in its step, and in no other. -/
theorem runs_checkIdentity {context : StepContext} {step : LegacyRehearsalStep}
    {trace : List RehearsalEvent} {outcome : Except Raised Unit}
    (h : (checkIdentity context step).Runs trace outcome) :
    Attempt [] trace (thrownIn outcome) ∧ (outcome = .ok () → step.id = .identityEvidence →
      (⟨.identityCheck context.plan.manifest context.repositoryRoot, .ok ()⟩ : RehearsalEvent) ∈
        trace) := by
  unfold checkIdentity at h
  split at h
  · obtain ⟨answer, rest, rfl, hrest⟩ := Prog.runs_call.mp h
    obtain ⟨rfl, rfl⟩ := Prog.runs_ret.mp hrest
    rcases outcome with error | _
    · exact ⟨.call_error rfl rfl rfl, by rintro ⟨⟩⟩
    · exact ⟨.call_ok rfl rfl rfl, fun _ _ => List.mem_singleton_self _⟩
  · next hother =>
    obtain ⟨rfl, rfl⟩ := Prog.runs_ret.mp h
    exact ⟨.nothing, fun _ hid => absurd hid hother⟩

/-- D1 is checked in its step, and in no other. -/
theorem runs_checkD1 {context : StepContext} {step : LegacyRehearsalStep}
    {trace : List RehearsalEvent} {outcome : Except Raised (Option D1CompatibilityResult)}
    (h : (checkD1 context step).Runs trace outcome) :
    Attempt [] trace (thrownIn outcome) ∧ ∀ d1, outcome = .ok d1 → step.id = .d1Compatibility →
      ∃ result : D1CompatibilityResult,
        (⟨.d1Check context.plan.manifest context.repositoryRoot context.tempRoot, .ok result⟩ :
          RehearsalEvent) ∈ trace := by
  unfold checkD1 at h
  split at h
  · obtain ⟨answer, rest, rfl, hrest⟩ := Prog.runs_call.mp h
    rcases answer with error | result
    · obtain ⟨rfl, rfl⟩ := Prog.runs_ret.mp hrest
      exact ⟨.call_error rfl rfl rfl, by rintro d1 ⟨⟩⟩
    · obtain ⟨rfl, rfl⟩ := Prog.runs_ret.mp hrest
      exact ⟨.call_ok rfl rfl rfl, fun _ _ _ => ⟨result, List.mem_singleton_self _⟩⟩
  · next hother =>
    obtain ⟨rfl, rfl⟩ := Prog.runs_ret.mp h
    exact ⟨.nothing, fun _ _ hid => absurd hid hother⟩

/-- What a step has come to whose call has returned. -/
structure Returned (context : StepContext) (step : LegacyRehearsalStep) (trace : List RehearsalEvent)
    (results : StepResults) : Prop where
  commands : results.commands.map Except.ok = outcomesIn trace
  identity : step.id = .identityEvidence →
    (⟨.identityCheck context.plan.manifest context.repositoryRoot, .ok ()⟩ : RehearsalEvent) ∈ trace
  d1 : step.id = .d1Compatibility → ∃ result : D1CompatibilityResult,
    (⟨.d1Check context.plan.manifest context.repositoryRoot context.tempRoot, .ok result⟩ :
      RehearsalEvent) ∈ trace

/-- The commands of a step, after its check. -/
theorem runs_executeStep {context : StepContext} {step : LegacyRehearsalStep}
    {trace : List RehearsalEvent} {outcome : Except Raised StepResults}
    (h : (executeStep context step).Runs trace outcome) :
    Attempt step.commands trace (thrownIn outcome) ∧
      ∀ results, outcome = .ok results → Returned context step trace results := by
  rcases Prog.runs_andThen.mp h with ⟨first, rest, _, rfl, hfirst, hrest⟩ | ⟨error, hthrown, rfl⟩
  · obtain ⟨hfirst, hidentity⟩ := runs_checkIdentity hfirst
    rcases Prog.runs_andThen.mp hrest with
      ⟨second, rest, d1, rfl, hsecond, hrest⟩ | ⟨error, hthrown, rfl⟩
    · obtain ⟨hsecond, hd1⟩ := runs_checkD1 hsecond
      rcases Prog.runs_andThen.mp hrest with
        ⟨third, rest, commands, rfl, hthird, hrest⟩ | ⟨error, hthrown, rfl⟩
      · obtain ⟨hthird, hall⟩ := runs_runCommands hthird
        obtain ⟨rfl, rfl⟩ := Prog.runs_ret.mp hrest
        rw [List.append_nil]
        refine ⟨hfirst.before (hsecond.before hthird), ?_⟩
        rintro results ⟨⟩
        refine ⟨?_, fun hid => ?_, fun hid => ?_⟩
        · -- the checks run no command
          rw [outcomesIn_append, outcomesIn_append, outcomesIn_eq_nil (hfirst.passed rfl).1,
            outcomesIn_eq_nil (hsecond.passed rfl).1]
          simpa using hall _ rfl
        · exact List.mem_append_left _ (hidentity rfl hid)
        · obtain ⟨result, hmem⟩ := hd1 _ rfl hid
          exact ⟨result, List.mem_append_right _ (List.mem_append_left _ hmem)⟩
      · obtain ⟨hthird, -⟩ := runs_runCommands hthrown
        exact ⟨hfirst.before (hsecond.before hthird), by rintro results ⟨⟩⟩
    · have hstopped := hfirst.before (runs_checkD1 hthrown).1
      exact ⟨hstopped.skip, by rintro results ⟨⟩⟩
  · have hstopped := (runs_checkIdentity hthrown).1
    exact ⟨hstopped.skip, by rintro results ⟨⟩⟩

/-! ## The clock of the RTO -/

/--
What the variables say of the RTO after steps with these ids: those in `begun` have started, those in
`ended` have succeeded. `trace` is what has been seen so far.
-/
structure Clocked (bound : Int) (begun ended : List LegacyStepId) (trace : List RehearsalEvent)
    (progress : Progress) : Prop where
  started : ∀ time ∈ progress.rtoStartedAt,
    (⟨.now (.stepStart .substituteWorkerStop), .ok time⟩ : RehearsalEvent) ∈ trace
  known : .substituteWorkerStop ∈ begun → progress.rtoStartedAt ≠ none
  measured : [.substituteWorkerStop, .legacyComposeRestore].Sublist ended →
    Contained trace → Noticed trace → RtoHeld bound trace progress.rtoMilliseconds

theorem RtoHeld.append {bound : Int} {trace : List RehearsalEvent} {rto : Option TimeValue}
    (h : RtoHeld bound trace rto) (rest : List RehearsalEvent) :
    RtoHeld bound (trace ++ rest) rto := by
  obtain ⟨start, finish, hstart, hfinish, hrto, hbound⟩ := h
  exact ⟨start, finish, List.mem_append_left _ hstart, List.mem_append_left _ hfinish, hrto, hbound⟩

namespace Clocked

variable {bound : Int} {begun ended : List LegacyStepId} {trace : List RehearsalEvent}
  {progress progress' : Progress} {step : LegacyRehearsalStep}

/-- Nothing else of the variables matters, and the trace may grow. -/
theorem keep (h : Clocked bound begun ended trace progress)
    (hstart : progress'.rtoStartedAt = progress.rtoStartedAt)
    (hrto : progress'.rtoMilliseconds = progress.rtoMilliseconds) (rest : List RehearsalEvent) :
    Clocked bound begun ended (trace ++ rest) progress' where
  started time htime := List.mem_append_left _ (h.started time (hstart ▸ htime))
  known hbegun := by rw [hstart]; exact h.known hbegun
  measured hended hcontained hnoticed := by
    rw [hrto]
    exact (h.measured hended (fun e he => hcontained e (List.mem_append_left _ he))
      hnoticed.left).append rest

/-- The RTO is measured from the start of its step. -/
theorem begin_ (h : Clocked bound ended ended trace progress) {startedAt : TimeValue}
    (hmem : (⟨.now (.stepStart step.id), .ok startedAt⟩ : RehearsalEvent) ∈ trace) :
    Clocked bound (ended ++ [step.id]) ended trace (noteStart step startedAt progress) := by
  unfold noteStart
  split
  · next hid =>
    rw [hid] at hmem
    exact ⟨by rintro time ⟨⟩; exact hmem, by simp, h.measured⟩
  · next hid =>
    refine ⟨h.started, fun hbegun => h.known ?_, h.measured⟩
    rcases List.mem_append.mp hbegun with hbegun | hbegun
    · exact hbegun
    · exact absurd (List.mem_singleton.mp hbegun).symm hid

end Clocked

/-- What the end of the RTO says, once the step has not been too slow. -/
theorem rtoHeld_of_within {bound : Int} {trace : List RehearsalEvent} {time startedAt : TimeValue}
    (hstart : (⟨.now (.stepStart .substituteWorkerStop), .ok startedAt⟩ : RehearsalEvent) ∈ trace)
    (hfinish : (⟨.now .rto, .ok time⟩ : RehearsalEvent) ∈ trace)
    (hcontained : Contained trace) (hnoticed : Noticed trace)
    (hwithin : exceeds (elapsed time startedAt) bound = false) :
    RtoHeld bound trace (some (elapsed time startedAt)) := by
  rcases time with _ | finish
  · exact absurd (hnoticed _ hfinish) (by simp [PassesUnseen])
  rcases startedAt with _ | start
  · exact absurd (hcontained _ hstart) (by simp [Escapes])
  refine ⟨start, finish, hstart, hfinish, rfl, ?_⟩
  simpa [exceeds, elapsed] using hwithin

/-- A pair that is in order in a list with one more item is so in the list, or ends with the item. -/
theorem pair_sublist_append {α : Type*} {a b c : α} {l : List α} (h : [a, b].Sublist (l ++ [c])) :
    [a, b].Sublist l ∨ a ∈ l ∧ b = c := by
  obtain ⟨first, second, heq, hfirst, hsecond⟩ := List.sublist_append_iff.mp h
  rcases List.sublist_singleton.mp hsecond with rfl | rfl
  · rw [List.append_nil] at heq
    exact Or.inl (heq ▸ hfirst)
  · obtain ⟨rfl, hb⟩ : first = [a] ∧ b = c := by
      rcases first with _ | ⟨x, _ | ⟨y, first⟩⟩ <;> simp_all
    exact Or.inr ⟨List.singleton_sublist.mp hfirst, hb⟩

/-- The restore is measured from the start that is known; the other steps are not. -/
theorem runs_measureRto {plan : LegacyRehearsalPlan} {step : LegacyRehearsalStep}
    {progress progress' : Progress} {trace : List RehearsalEvent} {thrown : Option Raised}
    (h : (measureRto plan step progress).Runs trace (progress', thrown)) :
    Attempt [] trace thrown ∧ progress'.failure = progress.failure ∧
      progress'.records = progress.records ∧ progress'.rtoStartedAt = progress.rtoStartedAt ∧
      ∀ ended seen, thrown = none →
        Clocked (plan.manifest.rtoSeconds * 1000) (ended ++ [step.id]) ended seen progress →
        Clocked (plan.manifest.rtoSeconds * 1000) (ended ++ [step.id]) (ended ++ [step.id])
          (seen ++ trace) progress' := by
  unfold measureRto at h
  rcases hfrom : measuredFrom step progress with _ | rtoStartedAt
  · rw [hfrom] at h
    obtain ⟨rfl, ⟨⟩⟩ := Prog.runs_ret.mp h
    refine ⟨.nothing, rfl, rfl, rfl, fun ended seen _ hclock => ?_⟩
    rw [List.append_nil]
    refine ⟨hclock.started, hclock.known, fun hsub hcontained hnoticed => ?_⟩
    rcases pair_sublist_append hsub with hsub | ⟨hstarted, hid⟩
    · exact hclock.measured hsub hcontained hnoticed
    · -- the restore without a start: the step that starts the RTO comes before it
      rw [measuredFrom, if_pos hid.symm] at hfrom
      exact absurd hfrom (hclock.known (List.mem_append_left _ hstarted))
  · rw [hfrom] at h
    have hstart : progress.rtoStartedAt = some rtoStartedAt := by
      unfold measuredFrom at hfrom
      split at hfrom
      · exact hfrom
      · cases hfrom
    obtain ⟨answer, rest, rfl, hrest⟩ := Prog.runs_call.mp h
    rcases answer with error | time
    · obtain ⟨rfl, ⟨⟩⟩ := Prog.runs_ret.mp hrest
      exact ⟨.call_error rfl rfl rfl, rfl, rfl, rfl, by rintro ended seen ⟨⟩⟩
    · dsimp only at hrest
      split at hrest
      · obtain ⟨rfl, ⟨⟩⟩ := Prog.runs_ret.mp hrest
        refine ⟨?_, rfl, rfl, rfl, by rintro ended seen ⟨⟩⟩
        exact ⟨List.prefix_rfl, by simp, by rintro error ⟨⟩ -; rfl, by simp [Contained, Escapes]⟩
      · next hwithin =>
        obtain ⟨rfl, ⟨⟩⟩ := Prog.runs_ret.mp hrest
        refine ⟨.call_ok rfl rfl rfl, rfl, rfl, rfl, fun ended seen _ hclock => ?_⟩
        refine ⟨fun t ht => List.mem_append_left _ (hclock.started t ht), hclock.known, ?_⟩
        intro _ hcontained hnoticed
        exact rtoHeld_of_within (List.mem_append_left _ (hclock.started _ hstart)) (by simp)
          hcontained hnoticed (by simpa using hwithin)

/-! ## What the code throws itself -/

theorem parseJson_raises (text : List Char) : RaisesTruthy (parseJson parse text) := by
  unfold parseJson
  split
  · exact .ok
  · exact .error

theorem composeService_raises (value : Json) : RaisesTruthy (composeService value) := by
  unfold composeService
  split
  · exact .error
  · exact .ok

/-- What cannot be read as services is an error. -/
theorem composeServices_raises (stdout : String) : RaisesTruthy (composeServices parse stdout) := by
  unfold composeServices
  dsimp only
  split
  · exact .error
  · split
    · refine (parseJson_raises parse _).bind fun value => ?_
      split
      · exact .mapM composeService_raises _
      · exact .error
    · exact (RaisesTruthy.mapM (parseJson_raises parse) _).bind fun items =>
        .mapM composeService_raises items

theorem assertService_raises (services : List ComposeService) (expected : String) :
    RaisesTruthy (assertService services expected) := by
  unfold assertService
  split
  · exact .error
  · split
    · exact .error
    · split
      · exact .error
      · exact .ok

/-- Whatever a step is judged wrong for is an error. -/
theorem judge_raises {plan : LegacyRehearsalPlan} {step : LegacyRehearsalStep}
    {results : StepResults} : RaisesTruthy (judge parse plan step results) := by
  unfold judge
  split
  · refine (composeServices_raises parse _).bind fun services => ?_
    refine (RaisesTruthy.forM (assertService_raises services) _).bind fun _ => ?_
    split
    · exact .error
    · exact .ok
  · exact .ok

/-! ## A step -/

/-- A record of a step is of two valid dates. -/
theorem stepRecord_ok {step : LegacyRehearsalStep} {startedAt finishedAt : TimeValue}
    {status : RecordStatus} {summary : String} {record : LegacyRehearsalStepEvidence}
    (h : stepRecord step startedAt finishedAt status summary = .ok record) :
    startedAt ≠ none ∧ finishedAt ≠ none ∧ record.id = some step.id ∧ record.status = status := by
  rcases startedAt with _ | start
  · rcases finishedAt with _ | finish <;> cases h
  · rcases finishedAt with _ | finish
    · cases h
    · cases h
      exact ⟨by simp, by simp, rfl, rfl⟩

/-- Only an invalid date makes the record fail. -/
theorem stepRecord_error {step : LegacyRehearsalStep} {startedAt finishedAt : TimeValue}
    {status : RecordStatus} {summary : String} {error : Raised}
    (h : stepRecord step startedAt finishedAt status summary = .error error) :
    (startedAt = none ∨ finishedAt = none) ∧ error.truthy := by
  rcases finishedAt with _ | finish
  · cases h
    exact ⟨Or.inr rfl, rfl⟩
  · rcases startedAt with _ | start
    · cases h
      exact ⟨Or.inl rfl, rfl⟩
    · cases h

/-- What a `try` does to the variables. -/
structure Tried (context : StepContext) (step : LegacyRehearsalStep) (startedAt : TimeValue)
    (progress : Progress) (trace : List RehearsalEvent) (progress' : Progress)
    (thrown : Option Raised) : Prop where
  attempt : Attempt step.commands trace thrown
  failure : progress'.failure = progress.failure
  dated : thrown = none → startedAt ≠ none
  recorded : thrown = none → ∃ record, progress'.records = progress.records ++ [record] ∧
    record.id = some step.id ∧ record.status = .succeeded
  unrecorded : thrown ≠ none → progress'.records = progress.records
  done : thrown = none → Done parse context step trace
  clocked : ∀ ended seen, thrown = none →
    Clocked (context.plan.manifest.rtoSeconds * 1000) (ended ++ [step.id]) ended seen progress →
    Clocked (context.plan.manifest.rtoSeconds * 1000) (ended ++ [step.id]) (ended ++ [step.id])
      (seen ++ trace) progress'

/-- The record of a success may still fail, by the clock. -/
theorem runs_recordSuccess {step : LegacyRehearsalStep} {startedAt : TimeValue}
    {progress progress' : Progress} {trace : List RehearsalEvent} {thrown : Option Raised}
    (h : (recordSuccess step startedAt progress).Runs trace (progress', thrown)) :
    Attempt [] trace thrown ∧
      (thrown ≠ none ∧ progress' = progress ∨ thrown = none ∧ startedAt ≠ none ∧
        ∃ record, progress' = { progress with records := progress.records ++ [record] } ∧
          record.id = some step.id ∧ record.status = .succeeded) := by
  obtain ⟨answer, rest, rfl, hrest⟩ := Prog.runs_call.mp h
  rcases answer with error | finishedAt
  · obtain ⟨rfl, ⟨⟩⟩ := Prog.runs_ret.mp hrest
    exact ⟨.call_error rfl rfl rfl, Or.inl ⟨by simp, rfl⟩⟩
  · dsimp only at hrest
    split at hrest
    · next error herror =>
      obtain ⟨rfl, ⟨⟩⟩ := Prog.runs_ret.mp hrest
      refine ⟨⟨List.prefix_rfl, by simp, ?_, by simp [Contained, Escapes]⟩,
        Or.inl ⟨by simp, rfl⟩⟩
      rintro error' ⟨⟩ -
      exact (stepRecord_error herror).2
    · next record hrecord =>
      obtain ⟨rfl, ⟨⟩⟩ := Prog.runs_ret.mp hrest
      obtain ⟨hstart, -, hid, hstatus⟩ := stepRecord_ok hrecord
      exact ⟨.call_ok rfl rfl rfl, Or.inr ⟨rfl, hstart, record, rfl, hid, hstatus⟩⟩

theorem noteD1_eq (step : LegacyRehearsalStep) (results : StepResults) (progress : Progress) :
    (noteD1 step results progress).failure = progress.failure ∧
      (noteD1 step results progress).records = progress.records ∧
      (noteD1 step results progress).rtoStartedAt = progress.rtoStartedAt ∧
      (noteD1 step results progress).rtoMilliseconds = progress.rtoMilliseconds := by
  unfold noteD1
  split <;> exact ⟨rfl, rfl, rfl, rfl⟩

/-- A step that has thrown before its record leaves only its trace. -/
theorem Tried.of_thrown {context : StepContext} {step : LegacyRehearsalStep}
    {startedAt : TimeValue} {progress progress' : Progress} {trace : List RehearsalEvent}
    {error : Raised} (hattempt : Attempt step.commands trace (some error))
    (hfailure : progress'.failure = progress.failure)
    (hrecords : progress'.records = progress.records) :
    Tried parse context step startedAt progress trace progress' (some error) where
  attempt := hattempt
  failure := hfailure
  dated := by simp
  recorded := by simp
  unrecorded _ := hrecords
  done := by simp
  clocked := by simp

/-- What is known of an attempt at a step. -/
theorem runs_attemptStep {context : StepContext} {step : LegacyRehearsalStep}
    {startedAt : TimeValue} {progress progress' : Progress} {trace : List RehearsalEvent}
    {thrown : Option Raised}
    (h : (attemptStep parse context step startedAt progress).Runs trace (progress', thrown)) :
    Tried parse context step startedAt progress trace progress' thrown := by
  -- the step's own calls, which throw or return results
  obtain ⟨first, rest, outcome, rfl, hfirst, hrest⟩ := Prog.runs_bind.mp h
  obtain ⟨hattempt, hreturned⟩ := runs_executeStep hfirst
  rcases outcome with error | results
  · obtain ⟨rfl, ⟨⟩⟩ := Prog.runs_ret.mp hrest
    rw [List.append_nil]
    exact .of_thrown parse hattempt rfl rfl
  -- then the clock is read for the recovery time
  · obtain ⟨second, rest, ⟨progress₁, thrown₁⟩, rfl, hsecond, hrest⟩ := Prog.runs_bind.mp hrest
    obtain ⟨hmeasured, hfailure, hrecords, hstart, hclock⟩ := runs_measureRto hsecond
    have hattempt := hattempt.andThen hmeasured
    rw [← List.append_assoc]
    rcases thrown₁ with _ | error
    · obtain ⟨hfailure', hrecords', hstart', hrto'⟩ := noteD1_eq step results progress₁
      dsimp only at hrest
      split at hrest
      · next error hjudge =>
        obtain ⟨rfl, ⟨⟩⟩ := Prog.runs_ret.mp hrest
        rw [List.append_nil]
        refine .of_thrown parse ⟨hattempt.ran, by simp, ?_, hattempt.contained⟩
          (hfailure'.trans hfailure) (hrecords'.trans hrecords)
        rintro error' ⟨⟩ -
        exact judge_raises parse _ hjudge
      · next hjudge =>
        -- then the results are judged, and the step is recorded
        obtain ⟨hlast, hend⟩ := runs_recordSuccess hrest
        have hattempt := hattempt.andThen hlast
        rcases hend with ⟨hne, rfl⟩ | ⟨rfl, hdated, record, rfl, hid, hstatus⟩
        · obtain ⟨error, rfl⟩ := Option.ne_none_iff_exists'.mp hne
          exact .of_thrown parse hattempt (hfailure'.trans hfailure) (hrecords'.trans hrecords)
        · refine ⟨hattempt, hfailure'.trans hfailure, fun _ => hdated, fun _ => ?_, by simp, ?_, ?_⟩
          · exact ⟨record, by rw [← hrecords, ← hrecords'], hid, hstatus⟩
          · intro _
            obtain ⟨hran, hpassed⟩ := hattempt.passed rfl
            have hreturned := hreturned results rfl
            refine ⟨hran, hpassed, fun hid => ?_, fun hid => ?_, fun hid => ?_⟩
            · exact List.mem_append_left _ (List.mem_append_left _ (hreturned.identity hid))
            · obtain ⟨result, hmem⟩ := hreturned.d1 hid
              exact ⟨result, List.mem_append_left _ (List.mem_append_left _ hmem)⟩
            · rw [judge, if_pos hid] at hjudge
              refine ⟨results.commands, ?_, hjudge⟩
              rw [outcomesIn_append, outcomesIn_append, outcomesIn_eq_nil (hmeasured.passed rfl).1,
                outcomesIn_eq_nil (hlast.passed rfl).1, List.append_nil, List.append_nil]
              exact hreturned.commands
          · intro ended seen _ hclocked
            rw [show seen ++ (first ++ second ++ rest) = seen ++ first ++ second ++ rest by simp]
            exact (hclock ended (seen ++ first) rfl (hclocked.keep rfl rfl first)).keep
              (by exact hstart') (by exact hrto') rest
    · obtain ⟨rfl, ⟨⟩⟩ := Prog.runs_ret.mp hrest
      rw [List.append_nil]
      exact .of_thrown parse hattempt hfailure hrecords

/-! ## The loop -/

/-- The record of a failure escapes when the clock fails, now or when the step started. -/
theorem runs_recordFailure {step : LegacyRehearsalStep} {startedAt : TimeValue}
    {progress : Progress} {error : Raised} {trace : List RehearsalEvent}
    {result : Except Raised Progress}
    (h : (recordFailure step startedAt progress error).Runs trace result) :
    commandsIn trace = [] ∧
      ((∃ thrown, result = .error thrown) ∧ (¬ Contained trace ∨ startedAt = none) ∨
        ∃ record, result = .ok { progress with
            failure := error, records := progress.records ++ [record] } ∧
          Contained trace ∧ startedAt ≠ none ∧ record.id = some step.id ∧
          record.status = .failed) := by
  obtain ⟨answer, rest, rfl, hrest⟩ := Prog.runs_call.mp h
  rcases answer with thrown | finishedAt
  · obtain ⟨rfl, rfl⟩ := Prog.runs_ret.mp hrest
    exact ⟨rfl, Or.inl ⟨⟨thrown, rfl⟩, Or.inl (by simp [Contained, Escapes])⟩⟩
  · dsimp only at hrest
    split at hrest
    · next thrown hthrown =>
      obtain ⟨rfl, rfl⟩ := Prog.runs_ret.mp hrest
      refine ⟨rfl, Or.inl ⟨⟨thrown, rfl⟩, ?_⟩⟩
      rcases (stepRecord_error hthrown).1 with hstart | rfl
      · exact Or.inr hstart
      · exact Or.inl (by simp [Contained, Escapes])
    · next record hrecord =>
      obtain ⟨rfl, rfl⟩ := Prog.runs_ret.mp hrest
      obtain ⟨hstart, hfinish, hid, hstatus⟩ := stepRecord_ok hrecord
      obtain ⟨finish, rfl⟩ := Option.ne_none_iff_exists'.mp hfinish
      exact ⟨rfl, Or.inr ⟨record, rfl, by simp [Contained, Escapes], hstart, hid, hstatus⟩⟩

/-- What the loop leaves behind when nothing passes unseen. -/
structure Stopped (context : StepContext) (steps : List LegacyRehearsalStep)
    (progress : Progress) (trace : List RehearsalEvent) (progress' : Progress)
    (records : List LegacyRehearsalStepEvidence) (finished : List LegacyRehearsalStep)
    (stopped : Option LegacyRehearsalStep) (before during : List RehearsalEvent) : Prop where
  trace_eq : trace = before ++ during
  executed : Executed parse context steps records finished stopped before during
  records_eq : progress'.records = progress.records ++ records
  failure : progress'.failure.truthy = stopped.isSome
  clocked : stopped = none → ∀ ended seen,
    Clocked (context.plan.manifest.rtoSeconds * 1000) ended ended seen progress →
    Clocked (context.plan.manifest.rtoSeconds * 1000) (ended ++ steps.map (·.id))
      (ended ++ steps.map (·.id)) (seen ++ trace) progress'

/-- No step is left: nothing is done. -/
theorem Stopped.nil {context : StepContext} {progress : Progress}
    (hfresh : progress.failure.truthy = false) :
    Stopped parse context [] progress [] progress [] [] none [] [] where
  trace_eq := rfl
  executed := ⟨List.prefix_rfl, ⟨[], rfl, .nil⟩, by simp, by simp, rfl⟩
  records_eq := by simp
  failure := hfresh
  clocked _ ended seen hclocked := by simpa using hclocked

/-- The step fails, and the loop ends. -/
theorem Stopped.fail {context : StepContext} {step : LegacyRehearsalStep}
    {steps : List LegacyRehearsalStep} {progress progress' : Progress}
    {trace : List RehearsalEvent} {record : LegacyRehearsalStepEvidence}
    (hran : commandsIn trace <+: step.commands)
    (hrecords : progress'.records = progress.records ++ [record]) (hid : record.id = some step.id)
    (hstatus : record.status = .failed) (hfailure : progress'.failure.truthy) :
    Stopped parse context (step :: steps) progress trace progress' [record] [] (some step) []
      trace where
  trace_eq := rfl
  executed :=
    ⟨List.prefix_append [step] steps, ⟨[], rfl, .nil⟩, by rintro _ ⟨⟩; exact hran, by simp,
      by simp [hid, hstatus]⟩
  records_eq := hrecords
  failure := hfailure
  clocked := by simp

/-- The start of the step is read from the clock first. -/
theorem Done.started {context : StepContext} {step : LegacyRehearsalStep}
    {trace : List RehearsalEvent} (h : Done parse context step trace) (startedAt : TimeValue) :
    Done parse context step (⟨.now (.stepStart step.id), .ok startedAt⟩ :: trace) where
  ran := h.ran
  passed := List.forall_mem_cons.mpr ⟨rfl, h.passed⟩
  identity hid := List.mem_cons_of_mem _ (h.identity hid)
  d1 hid := (h.d1 hid).imp fun _ => List.mem_cons_of_mem _
  reconciled := h.reconciled

@[simp]
theorem noteStart_records (step : LegacyRehearsalStep) (startedAt : TimeValue) (progress : Progress) :
    (noteStart step startedAt progress).records = progress.records := by
  unfold noteStart
  split <;> rfl

@[simp]
theorem noteStart_failure (step : LegacyRehearsalStep) (startedAt : TimeValue) (progress : Progress) :
    (noteStart step startedAt progress).failure = progress.failure := by
  unfold noteStart
  split <;> rfl

/-- After a failure that an `if` can see, the loop is left at its next turn. -/
theorem runs_runSteps_broken {context : StepContext} {steps : List LegacyRehearsalStep}
    {progress : Progress} {trace : List RehearsalEvent} {result : Except Raised Progress}
    (h : (runSteps parse context steps progress).Runs trace result)
    (htruthy : progress.failure.truthy = true) : trace = [] ∧ result = .ok progress := by
  cases steps with
  | nil => exact Prog.runs_ret.mp h
  | cons step steps =>
    rw [runSteps, if_pos htruthy] at h
    exact Prog.runs_ret.mp h

/-- The step succeeds, and the loop goes on. -/
theorem Stopped.cons {context : StepContext} {step : LegacyRehearsalStep}
    {steps : List LegacyRehearsalStep} {startedAt : TimeValue}
    {progress progress₁ progress' : Progress} {first rest : List RehearsalEvent}
    {records : List LegacyRehearsalStepEvidence} {finished : List LegacyRehearsalStep}
    {stopped : Option LegacyRehearsalStep} {before during : List RehearsalEvent}
    (htried : Tried parse context step startedAt (noteStart step startedAt progress) first progress₁
      none)
    (h : Stopped parse context steps progress₁ rest progress' records finished stopped before
      during) :
    ∃ record, Stopped parse context (step :: steps) progress
      (⟨.now (.stepStart step.id), .ok startedAt⟩ :: first ++ rest) progress' (record :: records)
      (step :: finished) stopped (⟨.now (.stepStart step.id), .ok startedAt⟩ :: first ++ before)
      during := by
  obtain ⟨record, hrecords, hid, hstatus⟩ := htried.recorded rfl
  refine ⟨record, ?_⟩
  refine { trace_eq := by simp [h.trace_eq], executed := ?_, records_eq := ?_, failure := h.failure
           clocked := ?_ }
  · refine { order := ?_, done := ?_, partly := h.executed.partly, none_left := ?_, recorded := ?_ }
    · exact List.cons_prefix_cons.mpr ⟨rfl, h.executed.order⟩
    · obtain ⟨parts, rfl, hdone⟩ := h.executed.done
      exact ⟨_, rfl, .cons ((htried.done rfl).started parse startedAt) hdone⟩
    · intro hnone
      obtain ⟨hfinished, hduring⟩ := h.executed.none_left hnone
      exact ⟨by rw [hfinished], hduring⟩
    · simp [h.executed.recorded, hid, hstatus]
  · rw [h.records_eq, hrecords, noteStart_records]
    simp
  · intro hnone ended seen hclocked
    have hbegun : Clocked (context.plan.manifest.rtoSeconds * 1000) (ended ++ [step.id]) ended
        (seen ++ [⟨.now (.stepStart step.id), .ok startedAt⟩]) (noteStart step startedAt progress) :=
      (hclocked.keep rfl rfl _).begin_ (by simp)
    have := h.clocked hnone _ _ (htried.clocked ended _ rfl hbegun)
    simpa [List.append_assoc] using this

/-- Something escapes when the clock fails at the start of a step, sooner or later. -/
theorem not_contained_cons {e : RehearsalEvent} {trace : List RehearsalEvent} :
    ¬ Contained (e :: trace) ↔ Escapes e = true ∨ ¬ Contained trace := by
  simp only [Contained, List.forall_mem_cons, not_and_or, Bool.not_eq_false]

theorem not_contained_append {first second : List RehearsalEvent} :
    ¬ Contained (first ++ second) ↔ ¬ Contained first ∨ ¬ Contained second := by
  simp only [Contained, List.forall_mem_append, not_and_or]

/-- The loop throws when something escapes, and then only; otherwise it ends as it should. -/
theorem runs_runSteps {context : StepContext} {steps : List LegacyRehearsalStep}
    {progress : Progress} {trace : List RehearsalEvent} {result : Except Raised Progress}
    (h : (runSteps parse context steps progress).Runs trace result)
    (hfresh : progress.failure.truthy = false) :
    (∃ error, result = .error error) ∧ ¬ Contained trace ∨
      ∃ progress', result = .ok progress' ∧ Contained trace ∧
        (Noticed trace → ∃ records finished stopped before during,
          Stopped parse context steps progress trace progress' records finished stopped before
            during) := by
  induction steps generalizing progress trace with
  | nil =>
    obtain ⟨rfl, rfl⟩ := Prog.runs_ret.mp h
    exact Or.inr ⟨progress, rfl, by simp [Contained], fun _ => ⟨_, _, _, _, _, .nil parse hfresh⟩⟩
  | cons step steps ih =>
    rw [runSteps, if_neg (by simp [hfresh])] at h
    obtain ⟨answer, rest, rfl, hrest⟩ := Prog.runs_call.mp h
    rcases answer with error | startedAt
    · obtain ⟨rfl, rfl⟩ := Prog.runs_ret.mp hrest
      exact Or.inl ⟨⟨error, rfl⟩, by simp [Contained, Escapes]⟩
    obtain ⟨first, rest, ⟨progress₁, thrown⟩, rfl, hfirst, hrest⟩ := Prog.runs_bind.mp hrest
    rw [← List.cons_append]
    have htried := runs_attemptStep parse hfirst
    have hfresh₁ : progress₁.failure = progress.failure :=
      htried.failure.trans (noteStart_failure _ _ _)
    -- the start of the step is read from the clock: without a date the step cannot be recorded
    have hstart : startedAt ≠ none →
        Contained (⟨.now (.stepStart step.id), .ok startedAt⟩ :: first) := by
      intro hdated
      obtain ⟨start, rfl⟩ := Option.ne_none_iff_exists'.mp hdated
      exact List.forall_mem_cons.mpr ⟨rfl, htried.attempt.contained⟩
    have hundated : startedAt = none →
        ¬ Contained (⟨.now (.stepStart step.id), .ok startedAt⟩ :: first ++ rest) := by
      rintro rfl
      simp [Contained, Escapes]
    rcases thrown with _ | error
    · rcases ih hrest (by rw [hfresh₁, hfresh]) with
        ⟨herror, hescapes⟩ | ⟨progress', rfl, hcontained, hstopped⟩
      · exact Or.inl ⟨herror, not_contained_append.mpr (Or.inr hescapes)⟩
      · refine Or.inr ⟨progress', rfl, (hstart (htried.dated rfl)).append hcontained, ?_⟩
        intro hnoticed
        obtain ⟨records, finished, stopped, before, during, h⟩ := hstopped hnoticed.right
        obtain ⟨record, hcons⟩ := h.cons parse htried
        exact ⟨_, _, _, _, _, hcons⟩
    · rcases Prog.runs_andThen.mp hrest with
        ⟨second, rest, progress₂, rfl, hsecond, hrest⟩ | ⟨thrown, hthrown, rfl⟩
      · obtain ⟨hno, ⟨⟨_, herror⟩, -⟩ | ⟨record, hok, hcontained, hdated, hid, hstatus⟩⟩ :=
          runs_recordFailure hsecond
        · cases herror
        cases hok
        have hcontained := (hstart hdated).append hcontained
        by_cases htruthy : error.truthy
        · obtain ⟨rfl, rfl⟩ := runs_runSteps_broken parse hrest htruthy
          refine Or.inr ⟨_, rfl, by simpa using hcontained,
            fun _ => ⟨[record], [], some step, [], _, .fail parse ?_ ?_ hid hstatus htruthy⟩⟩
          · rw [List.append_nil, commandsIn_append, hno, List.append_nil]
            exact htried.attempt.ran
          · simp [htried.unrecorded (by simp)]
        · -- a falsy thrown value: the loop goes on
          have hfalsy : ¬ Noticed first := fun hnoticed =>
            htruthy (htried.attempt.truthy error rfl hnoticed)
          rcases ih hrest (by simpa using htruthy) with
            ⟨herror, hescapes⟩ | ⟨progress', rfl, hrestContained, -⟩
          · refine Or.inl ⟨herror, ?_⟩
            rw [← List.append_assoc]
            exact not_contained_append.mpr (Or.inr hescapes)
          · refine Or.inr ⟨progress', rfl, ?_, fun hnoticed => absurd ?_ hfalsy⟩
            · rw [← List.append_assoc]
              exact hcontained.append hrestContained
            · exact fun e he => hnoticed e (by simp [he])
      · obtain ⟨-, ⟨-, hescapes⟩ | ⟨record, hok, -⟩⟩ := runs_recordFailure hthrown
        · refine Or.inl ⟨⟨thrown, rfl⟩, ?_⟩
          rcases hescapes with hescapes | hnone
          · exact not_contained_append.mpr (Or.inr hescapes)
          · exact hundated hnone
        · cases hok

/-! ## The cleanup -/

/-- Every cleanup command is run, whatever the others come to. -/
theorem runs_runCleanup {commands : List ReleaseCommand} {results results' : List CommandResult}
    {failure failure' : Raised} {trace : List RehearsalEvent}
    (h : (runCleanup commands results failure).Runs trace (results', failure')) :
    commandsIn trace = commands ∧ Contained trace ∧
      (Noticed trace → failure'.truthy = false → failure.truthy = false ∧
        (∀ e ∈ trace, Passed e) ∧
          results'.map Except.ok = results.map Except.ok ++ outcomesIn trace) := by
  induction commands generalizing results failure trace with
  | nil =>
    obtain ⟨rfl, ⟨⟩⟩ := Prog.runs_ret.mp h
    exact ⟨rfl, by simp [Contained], fun _ hfailure => ⟨hfailure, by simp, by simp⟩⟩
  | cons command commands ih =>
    obtain ⟨answer, rest, rfl, hrest⟩ := Prog.runs_call.mp h
    rcases answer with error | result
    · obtain ⟨hran, hcontained, hclean⟩ := ih hrest
      refine ⟨by rw [← hran]; rfl, List.forall_mem_cons.mpr ⟨rfl, hcontained⟩, ?_⟩
      intro hnoticed hfailure
      obtain ⟨hfalsy, -⟩ := hclean (List.forall_mem_cons.mp hnoticed).2 hfailure
      rw [Raised.truthy_orElse, Bool.or_eq_false_iff] at hfalsy
      have := (List.forall_mem_cons.mp hnoticed).1
      simp [PassesUnseen, hfalsy.2] at this
    · obtain ⟨hran, hcontained, hclean⟩ := ih hrest
      refine ⟨by rw [← hran]; rfl, List.forall_mem_cons.mpr ⟨rfl, hcontained⟩, ?_⟩
      intro hnoticed hfailure
      obtain ⟨hfalsy, hpassed, hresults⟩ := hclean (List.forall_mem_cons.mp hnoticed).2 hfailure
      by_cases hexit : result.exitCode = 0
      · rw [if_neg (not_not.mpr hexit)] at hfalsy
        refine ⟨hfalsy, List.forall_mem_cons.mpr ⟨by simpa [Passed] using hexit, hpassed⟩, ?_⟩
        rw [hresults, List.map_append, List.append_assoc]
        rfl
      · rw [if_pos hexit, Raised.truthy_orElse] at hfalsy
        simp [Raised.truthy] at hfalsy

/-- The record of the cleanup is of two valid dates. -/
theorem cleanupRecord_ok {plan : LegacyRehearsalPlan} {startedAt finishedAt : TimeValue}
    {residuals : Residuals} {failure : Raised} {record : LegacyRehearsalStepEvidence}
    (h : cleanupRecord plan startedAt finishedAt residuals failure = .ok record) :
    startedAt ≠ none ∧ finishedAt ≠ none ∧ record.id = none := by
  rcases startedAt with _ | start
  · rcases finishedAt with _ | finish <;> cases h
  · rcases finishedAt with _ | finish
    · cases h
    · cases h
      exact ⟨by simp, by simp, rfl⟩

/-- Only an invalid date makes the record of the cleanup fail. -/
theorem cleanupRecord_error {plan : LegacyRehearsalPlan} {startedAt finishedAt : TimeValue}
    {residuals : Residuals} {failure error : Raised}
    (h : cleanupRecord plan startedAt finishedAt residuals failure = .error error) :
    startedAt = none ∨ finishedAt = none := by
  rcases finishedAt with _ | finish
  · exact Or.inr rfl
  · rcases startedAt with _ | start
    · exact Or.inl rfl
    · cases h

/-- A cleanup that has not failed has counted nothing. -/
theorem residualFailure_falsy {residuals : Residuals} {failure : Raised}
    (h : (residualFailure residuals failure).truthy = false) :
    failure.truthy = false ∧ residuals = zeroResiduals := by
  unfold residualFailure at h
  split at h
  · rw [Raised.truthy_orElse] at h
    simp [Raised.truthy] at h
  · next hzero => exact ⟨h, not_not.mp hzero⟩

/-- What a cleanup that has not failed leaves. -/
structure Cleaned (results : List CommandResult) (failure : Raised) (trace : List RehearsalEvent)
    (cleanup : Cleanup) : Prop where
  failure : failure.truthy = false
  residuals : cleanup.residuals = zeroResiduals
  counted : countResiduals results false = zeroResiduals
  passed : ∀ e ∈ trace, Passed e

/-- The end of the cleanup: the directory, the clock and the record. -/
theorem runs_finishCleanup {plan : LegacyRehearsalPlan} {tempRoot : String} {startedAt : TimeValue}
    {results : List CommandResult} {failure : Raised} {trace : List RehearsalEvent}
    {result : Except Raised Cleanup}
    (h : (finishCleanup plan tempRoot startedAt results failure).Runs trace result) :
    (∃ error, result = .error error) ∧ (¬ Contained trace ∨ startedAt = none) ∨
      ∃ cleanup left, result = .ok cleanup ∧ Contained trace ∧ startedAt ≠ none ∧
        commandsIn trace = [] ∧ Removed tempRoot left trace ∧ cleanup.record.id = none ∧
        (cleanup.failure.truthy = false →
          left = false ∧ Cleaned results failure trace cleanup) := by
  obtain ⟨answer, rest, rfl, hrest⟩ := Prog.runs_call.mp h
  rcases answer with error | _
  · obtain ⟨rfl, rfl⟩ := Prog.runs_ret.mp hrest
    exact Or.inl ⟨⟨error, rfl⟩, Or.inl (by simp [Contained, Escapes])⟩
  obtain ⟨tempLeft, rest, rfl, hlast⟩ := Prog.runs_call.mp hrest
  dsimp only at hlast
  obtain ⟨answer, rest, rfl, hend⟩ := Prog.runs_call.mp hlast
  rcases answer with error | finishedAt
  · obtain ⟨rfl, rfl⟩ := Prog.runs_ret.mp hend
    exact Or.inl ⟨⟨error, rfl⟩, Or.inl (by simp [Contained, Escapes])⟩
  dsimp only at hend
  split at hend
  · next error herror =>
    obtain ⟨rfl, rfl⟩ := Prog.runs_ret.mp hend
    refine Or.inl ⟨⟨error, rfl⟩, ?_⟩
    rcases cleanupRecord_error herror with hstart | rfl
    · exact Or.inr hstart
    · exact Or.inl (by simp [Contained, Escapes])
  · next record hrecord =>
    obtain ⟨rfl, rfl⟩ := Prog.runs_ret.mp hend
    obtain ⟨hstart, hfinish, hid⟩ := cleanupRecord_ok hrecord
    obtain ⟨finish, rfl⟩ := Option.ne_none_iff_exists'.mp hfinish
    refine Or.inr ⟨_, tempLeft, rfl, by simp [Contained, Escapes], hstart, rfl, ⟨[], _, rfl⟩, hid,
      fun hfailure => ?_⟩
    obtain ⟨hfalsy, hzero⟩ := residualFailure_falsy hfailure
    have htemp : tempLeft = false := by
      have := congrArg Residuals.tempFiles hzero
      simpa [countResiduals, zeroResiduals] using this
    subst htemp
    exact ⟨rfl, hfalsy, hzero, hzero, by simp [Passed]⟩

/-- A command that has counted nothing has listed nothing. -/
theorem resultCount_zero {result : Option CommandResult} (h : resultCount result = 0) :
    ∃ counted, result = some counted ∧ lineCount counted.stdout = 0 := by
  rcases result with _ | result
  · cases h
  · rw [resultCount] at h
    split at h
    · cases h
    · exact ⟨result, rfl, by exact_mod_cast h⟩

/-- The cleanup throws when something escapes, and then only. -/
theorem runs_cleanupRehearsal {plan : LegacyRehearsalPlan} {tempRoot : String}
    {trace : List RehearsalEvent} {result : Except Raised Cleanup}
    (h : (cleanupRehearsal plan tempRoot).Runs trace result) :
    (∃ error, result = .error error) ∧ ¬ Contained trace ∨
      ∃ cleanup left, result = .ok cleanup ∧ Contained trace ∧
        commandsIn trace = plan.cleanupCommands ∧ Removed tempRoot left trace ∧
        cleanup.record.id = none ∧
        (Noticed trace → cleanup.failure.truthy = false → left = false ∧
          (∀ e ∈ trace, Passed e) ∧ cleanup.residuals = zeroResiduals ∧
            ∀ i ∈ [1, 2, 3], ∃ result : CommandResult,
              (outcomesIn trace)[i]? = some (.ok result) ∧ lineCount result.stdout = 0) := by
  obtain ⟨answer, rest, rfl, hrest⟩ := Prog.runs_call.mp h
  rcases answer with error | startedAt
  · obtain ⟨rfl, rfl⟩ := Prog.runs_ret.mp hrest
    exact Or.inl ⟨⟨error, rfl⟩, by simp [Contained, Escapes]⟩
  obtain ⟨first, rest, ⟨results, failure⟩, rfl, hfirst, hrest⟩ := Prog.runs_bind.mp hrest
  -- the cleanup commands run first, then the directory is removed
  obtain ⟨hran, hcontained, hclean⟩ := runs_runCleanup hfirst
  rcases runs_finishCleanup hrest with ⟨herror, hescapes⟩ |
    ⟨cleanup, left, rfl, hrestContained, hdated, hno, hremoved, hid, hcleaned⟩
  · refine Or.inl ⟨herror, not_contained_cons.mpr ?_⟩
    rcases hescapes with hescapes | rfl
    · exact Or.inr (not_contained_append.mpr (Or.inr hescapes))
    · exact Or.inl rfl
  · obtain ⟨start, rfl⟩ := Option.ne_none_iff_exists'.mp hdated
    refine Or.inr ⟨cleanup, left, rfl, ?_, ?_, ?_, hid, fun hnoticed hfailure => ?_⟩
    · exact List.forall_mem_cons.mpr ⟨rfl, hcontained.append hrestContained⟩
    · calc commandsIn (⟨.now .cleanupStart, .ok (some start)⟩ :: (first ++ rest))
          = commandsIn (first ++ rest) := rfl
        _ = plan.cleanupCommands := by rw [commandsIn_append, hran, hno, List.append_nil]
    · obtain ⟨front, finish, rfl⟩ := hremoved
      exact ⟨⟨.now .cleanupStart, .ok (some start)⟩ :: (first ++ front), finish, by simp⟩
    · obtain ⟨hgone, hcleaned⟩ := hcleaned hfailure
      have hfirstNoticed : Noticed first := fun e he => hnoticed e (by simp [he])
      obtain ⟨-, hpassed, hresults⟩ := hclean hfirstNoticed hcleaned.failure
      -- only the cleanup commands have outcomes, so the counts read theirs
      have houtcomes : outcomesIn (⟨.now .cleanupStart, .ok (some start)⟩ :: (first ++ rest)) =
          results.map Except.ok := by
        calc outcomesIn (⟨.now .cleanupStart, .ok (some start)⟩ :: (first ++ rest))
            = outcomesIn (first ++ rest) := rfl
          _ = results.map Except.ok := by
            rw [outcomesIn_append, outcomesIn_eq_nil hno, hresults]
            simp
      refine ⟨hgone, ?_, hcleaned.residuals, fun i hi => ?_⟩
      · exact List.forall_mem_cons.mpr
          ⟨rfl, List.forall_mem_append.mpr ⟨hpassed, hcleaned.passed⟩⟩
      · have hcount : resultCount results[i]? = 0 := by
          have hcounted := hcleaned.counted
          simp only [countResiduals, zeroResiduals, Residuals.mk.injEq] at hcounted
          fin_cases hi
          · exact hcounted.1
          · exact hcounted.2.1
          · exact hcounted.2.2.2
        obtain ⟨counted, hcounted, hlines⟩ := resultCount_zero hcount
        exact ⟨counted, by rw [houtcomes, List.getElem?_map, hcounted]; rfl, hlines⟩

/-! ## The rehearsal -/

/-- What is thrown outside the `try` is thrown as it is. -/
theorem runs_rethrow {α : Type} {p : RehearsalProg (Except Raised α)} {trace : List RehearsalEvent}
    {result : Except RehearsalFailure α} (h : (rethrow p).Runs trace result) :
    (∃ a, p.Runs trace (.ok a) ∧ result = .ok a) ∨
      ∃ error, p.Runs trace (.error error) ∧ result = .error (.thrown error) := by
  obtain ⟨first, rest, outcome, rfl, hfirst, hrest⟩ := Prog.runs_bind.mp h
  rcases outcome with error | a
  · obtain ⟨rfl, rfl⟩ := Prog.runs_ret.mp hrest
    exact Or.inr ⟨error, by simpa using hfirst, rfl⟩
  · obtain ⟨rfl, rfl⟩ := Prog.runs_ret.mp hrest
    exact Or.inl ⟨a, by simpa using hfirst, rfl⟩

/-- The evidence goes out one way or the other, and it is complete when nothing has failed. -/
theorem conclude_endsWith (plan : LegacyRehearsalPlan) (progress : Progress) (cleanup : Cleanup) :
    ∃ evidence, EndsWith (conclude plan progress cleanup) evidence ∧
      evidence.steps = progress.records ++ [cleanup.record] ∧
      evidence.residuals = cleanup.residuals ∧
      evidence.rtoMilliseconds = progress.rtoMilliseconds ∧
      (conclude plan progress cleanup = .ok evidence →
        progress.failure.truthy = false ∧ cleanup.failure.truthy = false) := by
  unfold conclude
  dsimp only
  split
  · next htruthy =>
    exact ⟨_, Or.inr ⟨_, rfl, by simp [evidence, htruthy]⟩, rfl, rfl, rfl, fun h => by cases h⟩
  · next hfalsy =>
    refine ⟨_, Or.inl ⟨rfl, by simp [evidence, hfalsy]⟩, rfl, rfl, rfl, fun _ => ?_⟩
    rw [Raised.truthy_orElse] at hfalsy
    simpa using hfalsy

/-- The variables before the first step say nothing. -/
theorem clocked_nothing {bound : Int} {d1Compatibility : Option D1CompatibilityResult}
    {failure : Raised} {records : List LegacyRehearsalStepEvidence} :
    Clocked bound [] [] [] { d1Compatibility, failure, records, rtoMilliseconds := none,
                             rtoStartedAt := none } where
  started := by simp
  known := by simp
  measured h := by simp at h

/-- The restore comes after the step that starts the RTO. -/
theorem legacySteps_timed (manifest : LegacyRehearsalManifest) :
    [.substituteWorkerStop, .legacyComposeRestore].Sublist ((legacySteps manifest).map (·.id)) := by
  show [LegacyStepId.substituteWorkerStop, .legacyComposeRestore].Sublist
    [.isolationPreflight, .identityEvidence, .d1Compatibility, .substituteWorkerStop,
      .legacyComposeRestore, .reconciliation]
  decide

/-- The part of the trace in which a step was done. -/
theorem exists_part {context : StepContext} {finished : List LegacyRehearsalStep}
    {parts : List (List RehearsalEvent)} (h : List.Forall₂ (Done parse context) finished parts)
    {step : LegacyRehearsalStep} (hmem : step ∈ finished) :
    ∃ part ∈ parts, Done parse context step part := by
  induction h with
  | nil => cases hmem
  | cons hdone _ ih =>
    rcases List.mem_cons.mp hmem with rfl | hmem
    · exact ⟨_, List.mem_cons_self, hdone⟩
    · obtain ⟨part, hpart, hdone⟩ := ih hmem
      exact ⟨part, List.mem_cons_of_mem _ hpart, hdone⟩

theorem passed_flatten {context : StepContext} {finished : List LegacyRehearsalStep}
    {parts : List (List RehearsalEvent)} (h : List.Forall₂ (Done parse context) finished parts) :
    ∀ e ∈ parts.flatten, Passed e := by
  induction h with
  | nil => simp
  | cons hdone _ ih => exact List.forall_mem_append.mpr ⟨hdone.passed, ih⟩

/-- Every id is that of a step. -/
theorem exists_legacyStep (manifest : LegacyRehearsalManifest) (id : LegacyStepId) :
    ∃ step ∈ legacySteps manifest, step.id = id := by
  cases id <;> simp [legacySteps, legacyStep]

/-- What the steps and the cleanup leave is a report. -/
theorem report_of_parts {digest : List ReleaseCommand → LegacyRehearsalManifest → String →
      List LegacyRehearsalStep → String} {manifest : LegacyRehearsalManifest}
    {context : StepContext} (hplan : context.plan = buildLegacyRehearsalPlan digest manifest)
    {progress : Progress} {cleanup : Cleanup} {first after : List RehearsalEvent} {left : Bool}
    {records : List LegacyRehearsalStepEvidence} {finished : List LegacyRehearsalStep}
    {stopped : Option LegacyRehearsalStep} {before during : List RehearsalEvent}
    (hcontained : Contained first) (hnoticed : Noticed (first ++ after))
    (hstopped : Stopped parse context context.plan.steps
      { d1Compatibility := none, failure := .undefined, records := [], rtoMilliseconds := none,
        rtoStartedAt := none } first progress records finished stopped before during)
    (hran : commandsIn after = context.plan.cleanupCommands)
    (hremoved : Removed context.tempRoot left after) (hid : cleanup.record.id = none)
    (hclean : cleanup.failure.truthy = false → left = false ∧
      (∀ e ∈ after, Passed e) ∧ cleanup.residuals = zeroResiduals ∧
        ∀ i ∈ [1, 2, 3], ∃ result : CommandResult,
          (outcomesIn after)[i]? = some (.ok result) ∧ lineCount result.stdout = 0) :
    Nonempty (Report parse context (first ++ after) (conclude context.plan progress cleanup)) := by
  obtain ⟨evidence, hends, hsteps, hresiduals, hrto, hcompleted⟩ :=
    conclude_endsWith context.plan progress cleanup
  refine ⟨{ before, during, after, trace_eq := by rw [hstopped.trace_eq], finished, stopped, records
            executed := hstopped.executed, cleaned := hran, left, removed := hremoved, evidence
            ending := hends, cleanup := cleanup.record, cleanup_id := hid
            steps_eq := by rw [hsteps, hstopped.records_eq]; rfl, certified := fun hok => ?_ }⟩
  obtain ⟨hprogress, hcleanup⟩ := hcompleted hok
  have hnone : stopped = none := by
    have := hstopped.failure
    rw [hprogress] at this
    exact Option.isNone_iff_eq_none.mp (by simpa using this.symm)
  obtain ⟨rfl, hpassed, hzero, hlisted⟩ := hclean hcleanup
  obtain ⟨hfinished, rfl⟩ := hstopped.executed.none_left hnone
  obtain ⟨parts, rfl, hdone⟩ := hstopped.executed.done
  have hfirst : first = parts.flatten := by rw [hstopped.trace_eq, List.append_nil]
  -- all steps are finished, so each has a part of the trace in which it did its check
  have hpart : ∀ id, ∃ step part, step.id = id ∧ Done parse context step part ∧
      ∀ e ∈ part, e ∈ first ++ after := by
    intro id
    obtain ⟨step, hmem, hstep⟩ := exists_legacyStep manifest id
    have hstepDone : step ∈ finished := by
      rw [hfinished, hplan]
      exact hmem
    obtain ⟨part, hpart, hdone⟩ := exists_part parse hdone hstepDone
    refine ⟨step, part, hstep, hdone, fun e he => List.mem_append_left _ ?_⟩
    rw [hfirst]
    exact List.mem_flatten_of_mem hpart he
  have hclocked := hstopped.clocked hnone [] [] clocked_nothing
  refine ⟨hnone, ?_, ?_, ?_, ?_, hresiduals.trans hzero, hremoved, hlisted⟩
  · rw [hfirst]
    exact List.forall_mem_append.mpr ⟨passed_flatten parse hdone, hpassed⟩
  · obtain ⟨step, part, hstep, hdone, hmem⟩ := hpart .identityEvidence
    exact hmem _ (hdone.identity hstep)
  · obtain ⟨step, part, hstep, hdone, hmem⟩ := hpart .d1Compatibility
    obtain ⟨result, hresult⟩ := hdone.d1 hstep
    exact ⟨result, hmem _ hresult⟩
  · rw [hrto]
    have htimed : [.substituteWorkerStop, .legacyComposeRestore].Sublist
        (context.plan.steps.map (·.id)) := by
      rw [hplan]
      exact legacySteps_timed manifest
    exact (hclocked.measured htimed hcontained hnoticed.left).append after

/--
A confirmed rehearsal whose temporary directory exists. Unless something passes unseen, it ends with
a report as soon as nothing escapes; and when something escapes there is no report.
-/
theorem rehearsal_reports {digest : List ReleaseCommand → LegacyRehearsalManifest → String →
      List LegacyRehearsalStep → String} {manifest : LegacyRehearsalManifest}
    {options : RehearsalOptions} {name tempRoot : String} {trace : List RehearsalEvent}
    {result : Except RehearsalFailure LegacyRehearsalEvidence}
    (hreal : options.dryRun = false)
    (hconfirm : options.confirm = some (buildLegacyRehearsalPlan digest manifest).planHash)
    (h : (executeLegacyRehearsal parse (buildLegacyRehearsalPlan digest manifest) options).Runs
      (⟨.mkdtemp name, .ok tempRoot⟩ :: trace) result) :
    let context : StepContext :=
      { plan := buildLegacyRehearsalPlan digest manifest
        repositoryRoot := options.repositoryRoot, tempRoot }
    (Noticed trace → Contained trace → Nonempty (Report parse context trace result)) ∧
      (Nonempty (Report parse context trace result) → Contained trace) := by
  intro context
  rw [executeLegacyRehearsal, if_neg (by simp [hreal]), if_neg (by simp [hconfirm])] at h
  obtain ⟨answer, rest, heq, hrest⟩ := Prog.runs_call.mp h
  cases heq
  rcases Prog.runs_andThen.mp hrest with
    ⟨first, rest, progress, rfl, hfirst, hlast⟩ | ⟨failure, hthrown, rfl⟩
  · rcases runs_rethrow hfirst with ⟨_, hfirst, ⟨⟩⟩ | ⟨error, -, ⟨⟩⟩
    rcases runs_runSteps parse hfirst rfl with
      ⟨⟨_, ⟨⟩⟩, -⟩ | ⟨_, ⟨⟩, hcontained, hstopped⟩
    rcases Prog.runs_andThen.mp hlast with
      ⟨after, rest, cleanup, rfl, hafter, hend⟩ | ⟨failure, hthrown, rfl⟩
    · rcases runs_rethrow hafter with ⟨_, hafter, ⟨⟩⟩ | ⟨error, -, ⟨⟩⟩
      rcases runs_cleanupRehearsal hafter with
        ⟨⟨_, ⟨⟩⟩, -⟩ | ⟨_, left, ⟨⟩, hafterContained, hran, hremoved, hid, hclean⟩
      obtain ⟨rfl, rfl⟩ := Prog.runs_ret.mp hend
      rw [List.append_nil]
      refine ⟨fun hnoticed _ => ?_, fun _ => hcontained.append hafterContained⟩
      obtain ⟨records, finished, stopped, before, during, hstopped⟩ := hstopped hnoticed.left
      exact report_of_parts parse rfl hcontained hnoticed hstopped hran hremoved hid
        (hclean hnoticed.right)
    · rcases runs_rethrow hthrown with ⟨_, -, ⟨⟩⟩ | ⟨error, herror, ⟨⟩⟩
      rcases runs_cleanupRehearsal herror with ⟨-, hescapes⟩ | ⟨_, _, ⟨⟩, -⟩
      exact ⟨fun _ hall => absurd (fun e he => hall e (List.mem_append_right _ he)) hescapes,
        fun hreport => absurd hreport (not_report parse)⟩
  · rcases runs_rethrow hthrown with ⟨_, -, ⟨⟩⟩ | ⟨error, herror, ⟨⟩⟩
    rcases runs_runSteps parse herror rfl with ⟨-, hescapes⟩ | ⟨_, ⟨⟩, -⟩
    exact ⟨fun _ hall => absurd hall hescapes, fun hreport => absurd hreport (not_report parse)⟩

/-! ## Runs -/

namespace Sample

/-- A manifest of the tests. -/
def manifest : LegacyRehearsalManifest where
  assets :=
    { channelsPath := "deploy/rehearsal/synthetic-channels.yml"
      composePath := "deploy/rehearsal/compose.yml"
      postgresSeedPath := "deploy/rehearsal/postgres-seed.sql" }
  backup := { id := "synthetic-postgres-v1", sha256 := "aa" }
  cloudflare := { apiPreviousVersion := "1111", consolePreviousCommit := "1" }
  d1 :=
    { legacyCutoff := "apps/api/migrations/0004_article_retry_safety.sql"
      migrations := ["apps/api/migrations/0004_article_retry_safety.sql"] }
  images := { mihomo := "mihomo", warp := "warp", worker := "worker" }
  rtoSeconds := 900
  runId := "rb-20300101-000001"
  sourceCommit := "2"

def plan : LegacyRehearsalPlan := buildLegacyRehearsalPlan (fun _ _ _ _ => "hash") manifest

def options : RehearsalOptions := { confirm := some "hash", dryRun := false, repositoryRoot := "/repo" }

def context : StepContext :=
  { plan, repositoryRoot := "/repo", tempRoot := "/tmp/inbox-rb-20300101-000001-" }

/-- What `docker compose ps` gives when the services are up. -/
def services : String :=
  "[\x7b\"Service\":\"postgres\",\"State\":\"running\",\"Health\":\"healthy\"\x7d," ++
    "\x7b\"Service\":\"redis\",\"State\":\"running\",\"Health\":\"healthy\"\x7d," ++
    "\x7b\"Service\":\"server\",\"State\":\"running\",\"Health\":\"healthy\"\x7d," ++
    "\x7b\"Service\":\"worker\",\"State\":\"running\",\"Health\":\"healthy\"\x7d]"

/-- `JSON.parse`, of `services` and of what is no JSON: no other text is parsed in these runs. -/
def parseServices (text : String) : Except String Json :=
  if text = services then
    .ok <| .arr <| ["postgres", "redis", "server", "worker"].map fun service =>
      .obj [("Service", .str service), ("State", .str "running"), ("Health", .str "healthy")]
  else .error "Unexpected end of JSON input"

def answered (outcome : ReleaseCommand → CommandResult) (removed : Except Raised Unit) :
    (c : RehearsalCall) → c.Answer
  | .now _ => .ok (some 0)
  | .mkdtemp name => .ok ("/tmp/" ++ name)
  | .run command => .ok (outcome command)
  | .identityCheck .. => .ok ()
  | .d1Check .. => .ok { legacyWriteCount := 1, migrationCount := 7, stableDigest := "aa" }
  | .rm _ => removed
  | .fileExists _ => false

/-- The first command of the preflight fails. -/
def refused (_ : ReleaseCommand) : CommandResult :=
  { exitCode := 1, stderr := "no such file", stdout := "" }

/-- Every command goes well, and those of the reconciliation find what they look for. -/
def healthy (command : ReleaseCommand) : CommandResult where
  exitCode := 0
  stderr := ""
  stdout :=
    if command = compose manifest ["ps", "--format", "json"] then services
    else if command.args.contains
        "SELECT backup_id || '|' || record_count FROM rehearsal_backup_marker;" then
      "synthetic-postgres-v1|1\n"
    else ""

/-- The rehearsal of the plan in its temporary directory, with these answers. -/
def run (outcome : ReleaseCommand → CommandResult) (removed : Except Raised Unit) :
    List RehearsalEvent × Except RehearsalFailure LegacyRehearsalEvidence :=
  (rehearse parseServices context).answered (answered outcome removed)

theorem runs_run (outcome : ReleaseCommand → CommandResult) (removed : Except Raised Unit) :
    (executeLegacyRehearsal parseServices plan options).Runs
      (⟨.mkdtemp ("inbox-" ++ plan.manifest.runId ++ "-"), .ok context.tempRoot⟩ ::
        (run outcome removed).1) (run outcome removed).2 := by
  rw [executeLegacyRehearsal, if_neg (by decide), if_neg (by decide)]
  exact .call (Prog.runs_answered _ _)

theorem run_noticed (outcome : ReleaseCommand → CommandResult) :
    Noticed (run outcome (.ok ())).1 := by
  rintro ⟨call, answer⟩ he
  obtain rfl : answer = answered outcome (.ok ()) call := Prog.answer_of_mem_answered he
  cases call with
  | now moment => cases moment <;> rfl
  | mkdtemp | run | identityCheck | d1Check | rm | fileExists => rfl

theorem run_contained (outcome : ReleaseCommand → CommandResult) :
    Contained (run outcome (.ok ())).1 := by
  rintro ⟨call, answer⟩ he
  obtain rfl : answer = answered outcome (.ok ()) call := Prog.answer_of_mem_answered he
  cases call with
  | now moment => cases moment <;> rfl
  | mkdtemp | run | identityCheck | d1Check | rm | fileExists => rfl

end Sample

/-- The removal throws after a step has failed: neither failure is reported. -/
theorem failed_removal_not_reported :
    ∃ name trace result, (executeLegacyRehearsal Sample.parseServices Sample.plan Sample.options).Runs
        (⟨.mkdtemp name, .ok Sample.context.tempRoot⟩ :: trace) result ∧
      result = .error (.thrown (.error "EBUSY: resource busy or locked, rmdir")) ∧
      ¬ Nonempty (Report Sample.parseServices Sample.context trace result) :=
  ⟨_, _, _, Sample.runs_run Sample.refused
    (.error (.error "EBUSY: resource busy or locked, rmdir")), rfl,
    not_report Sample.parseServices⟩

/-- Where the directory is removed, the failed step is reported, and so is a run that completes. -/
theorem rehearsal_reports_removed :
    (∀ outcome ∈ [Sample.refused, Sample.healthy], Nonempty (Report Sample.parseServices
      Sample.context (Sample.run outcome (.ok ())).1 (Sample.run outcome (.ok ())).2)) ∧
      (Sample.run Sample.healthy (.ok ())).2.isOk = true := by
  refine ⟨fun outcome _ => ?_, by decide +kernel⟩
  exact (rehearsal_reports Sample.parseServices rfl rfl (Sample.runs_run outcome (.ok ()))).1
    (Sample.run_noticed outcome) (Sample.run_contained outcome)

end InboxServer.Rehearsal
