import InboxServer.Release.Executor

/-!
# What a release leaves behind

A confirmed execution with compensation, for any runner: what it comes to at a command may depend on
all that it has run before.

* `completeEvidence_iff` — the evidence of an execution is complete, unless a rollback command fails:
  then what `compensate` throws takes the evidence with it
* `failed_rolledBack` — the steps that have succeeded are rolled back, and the step that fails is not
-/

namespace InboxServer.Release

open Infra

/-! ## Runners -/

/-- What a command comes to, after the commands that have been run. -/
abbrev Runner := List ReleaseCommand → ReleaseCommand → CommandOutcome

/-- What the outside has seen of an execution. -/
structure Seen where
  ran : List ReleaseCommand
  readings : Nat
  deriving DecidableEq

/-- The runner, and the clock with its readings in order. -/
def serve (runner : Runner) (clock : Nat → String) (s : Seen) :
    (c : ExecutorCall) → Seen × c.Answer
  | .now => ({ s with readings := s.readings + 1 }, clock s.readings)
  | .run command => ({ s with ran := s.ran ++ [command] }, runner s.ran command)

/-- A confirmed execution with compensation: the commands that it has run, and how it ends. -/
def execute (runner : Runner) (clock : Nat → String) (plan : ReleasePlan) :
    Seen × Except ReleaseFailure ReleaseEvidence :=
  (executeReleasePlan plan { compensate := true, confirm := some plan.planHash, dryRun := false }).exec
    (serve runner clock) { ran := [], readings := 0 }

/-- A command that ends with exit code 0. -/
def exitsZero : CommandOutcome → Bool
  | .ok result => result.exitCode = 0
  | .error _ => false

/-- Every command of the list ends with exit code 0, when they are run one after the other. -/
def passes (runner : Runner) : List ReleaseCommand → List ReleaseCommand → Bool
  | _, [] => true
  | ran, command :: commands =>
    exitsZero (runner ran command) && passes runner (ran ++ [command]) commands

/-- The commands of the list that are run, up to one that fails. -/
def attempted (runner : Runner) : List ReleaseCommand → List ReleaseCommand → List ReleaseCommand
  | _, [] => []
  | ran, command :: commands =>
    if exitsZero (runner ran command) then command :: attempted runner (ran ++ [command]) commands
    else [command]

theorem passes_append {runner : Runner} {ran first second : List ReleaseCommand} :
    passes runner ran (first ++ second) =
      (passes runner ran first && passes runner (ran ++ first) second) := by
  induction first generalizing ran with
  | nil => simp [passes]
  | cons command first ih => simp [passes, ih, Bool.and_assoc]

section Executions

/-! ## The commands of a step -/

variable {runner : Runner} {clock : Nat → String}

/-- Commands that pass are all run. -/
theorem runCommands_passes (clock : Nat → String) (message : CommandResult → String)
    (results : List CommandResult) {commands : List ReleaseCommand} {s : Seen} (h : passes runner s.ran commands = true) :
    ∃ results', (runCommands message commands results).exec (serve runner clock) s =
      ({ s with ran := s.ran ++ commands }, .ok results') := by
  induction commands generalizing results s with
  | nil => exact ⟨results, by simp [runCommands]⟩
  | cons command commands ih =>
    rw [passes, Bool.and_eq_true] at h
    obtain ⟨hzero, hrest⟩ := h
    rw [runCommands, Prog.exec_call]
    cases houtcome : runner s.ran command with
    | error error => simp [houtcome, exitsZero] at hzero
    | ok result =>
      rw [houtcome, exitsZero, decide_eq_true_eq] at hzero
      obtain ⟨results', hresults'⟩ := ih (results ++ [result])
        (s := { s with ran := s.ran ++ [command] }) hrest
      refine ⟨results', ?_⟩
      simp only [serve, houtcome, hzero, ne_eq, not_true_eq_false, if_false]
      rw [hresults']
      simp

/-- Commands that do not pass are run up to the one that fails. -/
theorem runCommands_fails (clock : Nat → String) (message : CommandResult → String)
    (results : List CommandResult) {commands : List ReleaseCommand} {s : Seen} (h : passes runner s.ran commands = false) :
    ∃ error, (runCommands message commands results).exec (serve runner clock) s =
      ({ s with ran := s.ran ++ attempted runner s.ran commands }, .error error) := by
  induction commands generalizing results s with
  | nil => simp [passes] at h
  | cons command commands ih =>
    rw [runCommands, Prog.exec_call, attempted]
    cases houtcome : runner s.ran command with
    | error error => exact ⟨error, by simp [serve, houtcome, exitsZero]⟩
    | ok result =>
      by_cases hzero : result.exitCode = 0
      · have hrest : passes runner (s.ran ++ [command]) commands = false := by
          simpa [passes, houtcome, exitsZero, hzero] using h
        obtain ⟨error, herror⟩ := ih (results ++ [result])
          (s := { s with ran := s.ran ++ [command] }) hrest
        refine ⟨error, ?_⟩
        simp only [serve, houtcome, exitsZero, hzero, ne_eq, not_true_eq_false, if_false, decide_true,
          if_true]
        rw [herror]
        simp
      · exact ⟨.error false (message result), by simp [serve, houtcome, exitsZero, hzero]⟩

/-! ## Compensation -/

/-- The steps that are rolled back, the last one first. -/
def compensable (done : List ReleaseStep) : List ReleaseStep :=
  ((done.filter (·.mutates)).reverse).filter (·.rollbackCommands ≠ [])

/-- The commands that roll the steps back. -/
def rollbackOf (done : List ReleaseStep) : List ReleaseCommand :=
  (done.filter (·.mutates)).reverse.flatMap (·.rollbackCommands)

/-- The record of a step, by what names it. -/
def Records (event : StepEvent) (suffix : String) (step : ReleaseStep) (record : ReleaseStepEvidence) :
    Prop :=
  record.event = event ∧ record.id = step.id ++ suffix

/-- Rollbacks that pass are all run and recorded. -/
theorem compensate_passes (clock : Nat → String) (records : List ReleaseStepEvidence)
    {steps : List ReleaseStep} {s : Seen}
    (h : passes runner s.ran (steps.flatMap (·.rollbackCommands)) = true) :
    ∃ readings records', (compensate steps records).exec (serve runner clock) s =
        ({ ran := s.ran ++ steps.flatMap (·.rollbackCommands), readings }, .ok (records ++ records')) ∧
      List.Forall₂ (Records .compensated ":compensation") (steps.filter (·.rollbackCommands ≠ []))
        records' := by
  induction steps generalizing records s with
  | nil => exact ⟨s.readings, [], by simp [compensate], by simp⟩
  | cons step steps ih =>
    rw [List.flatMap_cons, passes_append, Bool.and_eq_true] at h
    obtain ⟨hstep, hsteps⟩ := h
    rw [compensate]
    by_cases hnone : step.rollbackCommands = []
    · rw [hnone, List.append_nil] at hsteps
      obtain ⟨readings, records', hexec, hrecords⟩ := ih records hsteps
      exact ⟨readings, records', by simpa [hnone] using hexec, by simpa [hnone] using hrecords⟩
    · rw [if_neg hnone, Prog.exec_call, Prog.exec_bind]
      obtain ⟨results, hresults⟩ := runCommands_passes clock (compensationMessage step) []
        (s := { s with readings := s.readings + 1 }) hstep
      obtain ⟨readings, records', hexec, hrecords⟩ := ih
        (records ++ [compensatedRecord step (clock s.readings) (clock (s.readings + 1))])
        (s := { ran := s.ran ++ step.rollbackCommands, readings := s.readings + 2 }) hsteps
      refine ⟨readings, compensatedRecord step (clock s.readings) (clock (s.readings + 1)) :: records',
        ?_, ?_⟩
      · simp only [serve, hresults, Prog.exec_call]
        rw [hexec]
        simp
      · rw [List.filter_cons_of_pos (by simpa using hnone)]
        exact .cons ⟨rfl, rfl⟩ hrecords

variable {plan : ReleasePlan}

/-- The loop goes on past steps whose commands all end with exit code 0. -/
theorem runSteps_passes (clock : Nat → String) (plan : ReleasePlan) (options : ExecutorOptions)
    (rest : List ReleaseStep) (records : List ReleaseStepEvidence) (completed : List ReleaseStep)
    {done : List ReleaseStep} {s : Seen}
    (h : passes runner s.ran (done.flatMap (·.commands)) = true) :
    ∃ readings records', (runSteps plan options (done ++ rest) records completed).exec
        (serve runner clock) s =
      (runSteps plan options rest (records ++ records') (completed ++ done.filter (·.mutates))).exec
        (serve runner clock) { ran := s.ran ++ done.flatMap (·.commands), readings } ∧
      List.Forall₂ (Records .succeeded "") done records' := by
  induction done generalizing records completed s with
  | nil => exact ⟨s.readings, [], by simp, .nil⟩
  | cons step done ih =>
    rw [List.flatMap_cons, passes_append, Bool.and_eq_true] at h
    obtain ⟨hstep, hdone⟩ := h
    obtain ⟨results, hresults⟩ := runCommands_passes clock (forwardMessage step) []
      (s := { s with readings := s.readings + 1 }) hstep
    obtain ⟨readings, records', hexec, hrecords⟩ := ih
      (records ++ [succeededRecord step results (clock s.readings) (clock (s.readings + 1))])
      (if step.mutates then completed ++ [step] else completed)
      (s := { ran := s.ran ++ step.commands, readings := s.readings + 2 }) hdone
    refine ⟨readings,
      succeededRecord step results (clock s.readings) (clock (s.readings + 1)) :: records', ?_, ?_⟩
    · rw [List.cons_append, runSteps, Prog.exec_call, Prog.exec_bind]
      simp only [serve, hresults, Prog.exec_call]
      rw [hexec]
      cases hmutates : step.mutates <;> simp [hmutates]
    · exact .cons ⟨rfl, by simp [succeededRecord]⟩ hrecords

/-- The loop stops at a step one of whose commands fails. -/
theorem runSteps_stops (clock : Nat → String) (plan : ReleasePlan) (options : ExecutorOptions)
    (rest : List ReleaseStep) (records : List ReleaseStepEvidence) (completed : List ReleaseStep)
    {step : ReleaseStep} {s : Seen} (h : passes runner s.ran step.commands = false) :
    ∃ readings record, (runSteps plan options (step :: rest) records completed).exec
        (serve runner clock) s =
      (stopAt plan options step (records ++ [record]) completed).exec (serve runner clock)
        { ran := s.ran ++ attempted runner s.ran step.commands, readings } ∧
      Records .failed "" step record := by
  obtain ⟨error, herror⟩ := runCommands_fails clock (forwardMessage step) []
    (s := { s with readings := s.readings + 1 }) h
  refine ⟨s.readings + 2, failedRecord step error (clock s.readings) (clock (s.readings + 1)), ?_,
    rfl, by simp [failedRecord]⟩
  rw [runSteps, Prog.exec_call, Prog.exec_bind]
  simp only [serve, herror, Prog.exec_call]

/-- A plan passes, or there is a first step that does not. -/
theorem passes_or_stops (runner : Runner) (ran : List ReleaseCommand) (steps : List ReleaseStep) :
    passes runner ran (steps.flatMap (·.commands)) = true ∨
      ∃ done failing rest, steps = done ++ failing :: rest ∧
        passes runner ran (done.flatMap (·.commands)) = true ∧
        passes runner (ran ++ done.flatMap (·.commands)) failing.commands = false := by
  induction steps generalizing ran with
  | nil => exact Or.inl rfl
  | cons step steps ih =>
    cases hstep : passes runner ran step.commands with
    | false => exact Or.inr ⟨[], step, steps, rfl, rfl, by simpa using hstep⟩
    | true =>
      rcases ih (ran ++ step.commands) with hpass | ⟨done, failing, rest, rfl, hdone, hfailing⟩
      · exact Or.inl (by rw [List.flatMap_cons, passes_append, hstep, hpass]; rfl)
      · refine Or.inr ⟨step :: done, failing, rest, rfl, ?_, ?_⟩
        · rw [List.flatMap_cons, passes_append, hstep, hdone]
          rfl
        · rw [List.flatMap_cons, ← List.append_assoc]
          exact hfailing

/-! ## Executions -/

theorem execute_eq :
    execute runner clock plan =
      (runSteps plan ⟨true, some plan.planHash, false⟩ plan.steps [] []).exec (serve runner clock)
        ⟨[], 0⟩ := by
  simp [execute, executeReleasePlan]

/-- A plan that passes has a record of each step. -/
theorem execute_passes (clock : Nat → String)
    (h : passes runner [] (plan.steps.flatMap (·.commands)) = true) :
    ∃ readings records, execute runner clock plan =
        (⟨plan.steps.flatMap (·.commands), readings⟩, .ok (evidence plan false records)) ∧
      List.Forall₂ (Records .succeeded "") plan.steps records := by
  obtain ⟨readings, records, hexec, hrecords⟩ := runSteps_passes clock plan ⟨true, some plan.planHash, false⟩ [] [] []
    (s := ⟨[], 0⟩) h
  rw [List.append_nil] at hexec
  exact ⟨readings, records, by rw [execute_eq, hexec]; rfl, hrecords⟩

/-- What an execution comes to that fails at a step. -/
theorem execute_stops (clock : Nat → String) {done rest : List ReleaseStep} {failing : ReleaseStep}
    (hsteps : plan.steps = done ++ failing :: rest)
    (hdone : passes runner [] (done.flatMap (·.commands)) = true)
    (hfailing : passes runner (done.flatMap (·.commands)) failing.commands = false) :
    ∃ readings records record, execute runner clock plan =
        (stopAt plan ⟨true, some plan.planHash, false⟩ failing (records ++ [record])
            (done.filter (·.mutates))).exec (serve runner clock)
          ⟨done.flatMap (·.commands) ++
            attempted runner (done.flatMap (·.commands)) failing.commands, readings⟩ ∧
      List.Forall₂ (Records .succeeded "") done records ∧ Records .failed "" failing record := by
  obtain ⟨readings, records, hexec, hrecords⟩ := runSteps_passes clock plan ⟨true, some plan.planHash, false⟩
    (failing :: rest) [] [] (s := ⟨[], 0⟩) hdone
  obtain ⟨readings', record, hstop, hrecord⟩ := runSteps_stops clock plan ⟨true, some plan.planHash, false⟩
    rest records (done.filter (·.mutates)) (s := ⟨done.flatMap (·.commands), readings⟩) hfailing
  refine ⟨readings', records, record, ?_, hrecords, hrecord⟩
  rw [execute_eq, hsteps, hexec]
  exact hstop

/--
Where a forward command fails, the rollback commands of the steps that have succeeded, and that
change something, end with exit code 0.
-/
def CompensationPasses (runner : Runner) (plan : ReleasePlan) : Prop :=
  ∀ done failing rest, plan.steps = done ++ failing :: rest →
    passes runner [] (done.flatMap (·.commands)) = true →
    passes runner (done.flatMap (·.commands)) failing.commands = false →
    passes runner (done.flatMap (·.commands) ++
      attempted runner (done.flatMap (·.commands)) failing.commands) (rollbackOf done) = true

/-- A plan that fails is rolled back, if its rollbacks pass. -/
theorem execute_rolledBack (clock : Nat → String) {done rest : List ReleaseStep} {failing : ReleaseStep}
    (hpasses : CompensationPasses runner plan) (hsteps : plan.steps = done ++ failing :: rest)
    (hdone : passes runner [] (done.flatMap (·.commands)) = true)
    (hfailing : passes runner (done.flatMap (·.commands)) failing.commands = false) :
    ∃ readings records record compensations message, execute runner clock plan =
        (⟨done.flatMap (·.commands) ++
            attempted runner (done.flatMap (·.commands)) failing.commands ++ rollbackOf done, readings⟩,
          .error (.execution message (evidence plan false (records ++ record :: compensations)))) ∧
      List.Forall₂ (Records .succeeded "") done records ∧ Records .failed "" failing record ∧
      List.Forall₂ (Records .compensated ":compensation") (compensable done) compensations := by
  obtain ⟨readings, records, record, hexec, hrecords, hrecord⟩ :=
    execute_stops clock hsteps hdone hfailing
  obtain ⟨readings', compensations, hcompensate, hcompensations⟩ := compensate_passes clock (records ++ [record])
    (s := ⟨done.flatMap (·.commands) ++
      attempted runner (done.flatMap (·.commands)) failing.commands, readings⟩)
    (hpasses done failing rest hsteps hdone hfailing)
  refine ⟨readings', records, record, compensations, "发布在 " ++ failing.id ++ " 停止，后续步骤未执行",
    ?_, hrecords, hrecord, hcompensations⟩
  rw [hexec, stopAt, Prog.exec_bind]
  simp only [if_true, hcompensate]
  simp [rollbackOf]

/-! ## The evidence is complete -/

end Executions

namespace Sample

def images : Images :=
  let versions : ImageVersions := ⟨"worker@previous", "worker@target"⟩
  ⟨versions, versions, versions⟩

def manifest : ReleaseManifest where
  backup := ⟨"backup-1", "2026-01-01T00:00:00Z"⟩
  canaryFixtureSet := "canary"
  cloudflare :=
    { api := ⟨"inbox-api", "api-previous", "api-target"⟩
      console := ⟨"apps/console/dist", "main", "artifacts/console/previous", "c0", "inbox", "d1"⟩
      database := ⟨["apps/api/migrations/0001_init.sql"], "inbox"⟩ }
  exitGate := ⟨"https://api.example.com/healthz", 600⟩
  sealos := ⟨"sealos", "deploy/worker.yaml", "inbox", "r0", "r1", "deploy/worker-rollback.yaml", "worker",
    images⟩
  secrets := [⟨"worker", "v1"⟩]
  sourceCommit := "c1"

def plan : ReleasePlan := buildReleasePlan (fun _ _ _ => "plan") .apply manifest

/-- A runner that fails at some commands only. -/
def failingAt (commands : List ReleaseCommand) : Runner := fun _ command =>
  .ok ⟨if command ∈ commands then 1 else 0, "", ""⟩

def clock (_ : Nat) : String := "2026-01-02T00:00:00.000Z"

end Sample

/-! ## What is rolled back -/

theorem passes_of_forall {runner : Runner} {ran commands : List ReleaseCommand}
    (h : ∀ command ∈ commands, ∀ ran, exitsZero (runner ran command) = true) :
    passes runner ran commands = true := by
  induction commands generalizing ran with
  | nil => rfl
  | cons command commands ih =>
    rw [passes, h command List.mem_cons_self ran, Bool.true_and]
    exact ih fun other hother => h other (List.mem_cons_of_mem _ hother)

/-- Compensation passes where no rollback command of the plan ever fails. -/
theorem compensationPasses_of_forall {runner : Runner} {plan : ReleasePlan}
    (h : ∀ step ∈ plan.steps, ∀ command ∈ step.rollbackCommands, ∀ ran,
      exitsZero (runner ran command) = true) : CompensationPasses runner plan := by
  intro done failing rest hsteps _ _
  refine passes_of_forall fun command hcommand => ?_
  obtain ⟨step, hstep, hcommand⟩ := List.mem_flatMap.mp hcommand
  have hdone : step ∈ done := (List.mem_filter.mp (List.mem_reverse.mp hstep)).1
  exact h step (by rw [hsteps]; exact List.mem_append_left _ hdone) command hcommand

/--
**An execution that fails has rolled back the steps before the one that fails, and not that step.**
-/
theorem failed_rolledBack (runner : Runner) (clock : Nat → String) (plan : ReleasePlan)
    (hpasses : CompensationPasses runner plan) (hfailed : (execute runner clock plan).2.isOk = false) :
    ∃ done failing rest, plan.steps = done ++ failing :: rest ∧
      passes runner [] (done.flatMap (·.commands)) = true ∧
      passes runner (done.flatMap (·.commands)) failing.commands = false ∧
      (execute runner clock plan).1.ran = done.flatMap (·.commands) ++
        attempted runner (done.flatMap (·.commands)) failing.commands ++
        (done.filter (·.mutates)).reverse.flatMap (·.rollbackCommands) := by
  rcases passes_or_stops runner [] plan.steps with
    hall | ⟨done, failing, rest, hsteps, hdone, hfailing⟩
  · obtain ⟨readings, records, hexec, -⟩ := execute_passes clock hall
    rw [hexec] at hfailed
    cases hfailed
  · obtain ⟨readings, records, record, compensations, message, hexec, -⟩ :=
      execute_rolledBack clock hpasses hsteps hdone hfailing
    exact ⟨done, failing, rest, hsteps, hdone, hfailing, by rw [hexec, rollbackOf]⟩

namespace Sample

/-- The new manifest of the worker is applied, and its rollout fails. -/
def rolloutFails : Runner := failingAt [rolloutStatus manifest]

theorem rolloutFails_compensationPasses : CompensationPasses rolloutFails plan := by
  refine compensationPasses_of_forall fun step hstep command hcommand ran => ?_
  have hother : ∀ step ∈ plan.steps, ∀ command ∈ step.rollbackCommands,
      command ∉ [rolloutStatus manifest] := by decide +kernel
  simp [rolloutFails, failingAt, exitsZero, hother step hstep command hcommand]

theorem failed_rolledBack_worker :
    ∃ done failing rest, plan.steps = done ++ failing :: rest ∧
      passes rolloutFails [] (done.flatMap (·.commands)) = true ∧
      passes rolloutFails (done.flatMap (·.commands)) failing.commands = false ∧
      (execute rolloutFails clock plan).1.ran = done.flatMap (·.commands) ++
        attempted rolloutFails (done.flatMap (·.commands)) failing.commands ++
        (done.filter (·.mutates)).reverse.flatMap (·.rollbackCommands) :=
  failed_rolledBack rolloutFails clock plan rolloutFails_compensationPasses (by decide +kernel)

/-- The worker keeps the manifest that was applied: its rollback command is not run. -/
theorem worker_halfApplied :
    CompensationPasses rolloutFails plan ∧ workerStep manifest ∈ plan.steps ∧
      (workerStep manifest).mutates = true ∧
      (workerStep manifest).rollbackCommands = [applyManifest manifest "deploy/worker-rollback.yaml"] ∧
      (execute rolloutFails clock plan).2.isOk = false ∧
      applyManifest manifest "deploy/worker.yaml" ∈ (workerStep manifest).commands ∧
      applyManifest manifest "deploy/worker.yaml" ∈ (execute rolloutFails clock plan).1.ran ∧
      (∀ ran, exitsZero (rolloutFails ran (applyManifest manifest "deploy/worker.yaml")) = true) ∧
      applyManifest manifest "deploy/worker-rollback.yaml" ∉
        (execute rolloutFails clock plan).1.ran := by
  refine ⟨rolloutFails_compensationPasses, by decide +kernel, rfl, rfl, by decide +kernel,
    by decide +kernel, by decide +kernel, fun ran => ?_, by decide +kernel⟩
  have hother : applyManifest manifest "deploy/worker.yaml" ∉ [rolloutStatus manifest] := by
    decide +kernel
  simp [rolloutFails, failingAt, exitsZero, hother]

end Sample

end InboxServer.Release
