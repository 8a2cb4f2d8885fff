import InboxServer.Domain.JobFailure
import InboxServer.Infra.Trace
import InboxServer.Release.Plan

/-!
# The release executor

`executeReleasePlan` of `packages/release-operations/src/release-executor.ts`, as a program that
reads the clock and gives commands to a runner. A command ends with an exit code, or the runner
throws.
-/

namespace InboxServer.Release

open Infra

structure CommandResult where
  exitCode : Int
  stderr : String
  stdout : String
  deriving DecidableEq

/-- What the runner comes to: it may throw instead. -/
abbrev CommandOutcome := Except Thrown CommandResult

inductive ExecutorCall where
  /-- `now().toISOString()` -/
  | now
  | run (command : ReleaseCommand)
  deriving DecidableEq

@[reducible] def ExecutorCall.Answer : ExecutorCall → Type
  | .now => String
  | .run _ => CommandOutcome

abbrev ExecutorProg (α : Type) := Prog ExecutorCall ExecutorCall.Answer α

/-! ## Evidence -/

inductive StepEvent where
  | compensated | failed | planned | succeeded
  deriving DecidableEq

structure ReleaseStepEvidence where
  commandCount : Nat
  description : String
  /-- `release.step.` and the name of the event; the status is that name too. -/
  event : StepEvent
  finishedAt : String
  id : String
  resultSummary : String
  startedAt : String
  deriving DecidableEq

structure ReleaseEvidence where
  action : ReleaseAction
  backupId : String
  cloudflareApiVersion : String
  cloudflareConsoleDeployment : String
  dryRun : Bool
  migrations : List String
  planHash : String
  sealosRevision : String
  sourceCommit : String
  steps : List ReleaseStepEvidence
  threeContainerDigests : Images
  deriving DecidableEq

inductive ReleaseFailure where
  /-- A `ReleaseExecutionError`. -/
  | execution (message : String) (evidence : ReleaseEvidence)
  | thrown (error : Thrown)
  deriving DecidableEq

/-- `evidence(plan, dryRun, steps)` -/
def evidence (plan : ReleasePlan) (dryRun : Bool) (steps : List ReleaseStepEvidence) :
    ReleaseEvidence :=
  let manifest := plan.manifest
  let isApply := plan.action = .apply
  { action := plan.action
    backupId := manifest.backup.id
    cloudflareApiVersion :=
      if isApply then manifest.cloudflare.api.targetVersion else manifest.cloudflare.api.previousVersion
    cloudflareConsoleDeployment :=
      if isApply then manifest.cloudflare.console.targetDeployment
      else manifest.cloudflare.console.previousCommit
    dryRun
    migrations := manifest.cloudflare.database.migrations
    planHash := plan.planHash
    sealosRevision := if isApply then manifest.sealos.revision else manifest.sealos.previousRevision
    sourceCommit := manifest.sourceCommit
    steps
    threeContainerDigests := manifest.sealos.images }

/-! ## Summaries -/

def summaryKeywords : List String := ["authorization", "cookie", "password", "secret", "token"]

/-- `(?:Bearer\s+)?[^\s,;]+` at the start of a text: what follows it. -/
def stripCredential (text : List Char) : Option (List Char) :=
  let plain :=
    if (text.takeWhile isSecretChar).isEmpty then none else some (text.dropWhile isSecretChar)
  match stripKeyword "bearer".toList text with
  | none => plain
  | some rest =>
    let value := rest.dropWhile isSpaceChar
    if (rest.takeWhile isSpaceChar).isEmpty || (value.takeWhile isSecretChar).isEmpty then plain
    else some (value.dropWhile isSecretChar)

/-- What stays of a credential at the start of a text, and what follows it. -/
def matchCredential (text : List Char) : Option (List Char × List Char) :=
  summaryKeywords.findSome? fun k =>
    match stripKeyword k.toList text with
    | none => none
    | some rest =>
      match stripSeparator rest with
      | none => none
      | some (separator, value) =>
        (stripCredential value).map fun rest => (text.take k.length ++ separator, rest)

/-- `https?:\/\/[^\s]+` at the start of a text: what follows it. -/
def matchAddress (text : List Char) : Option (List Char) :=
  ["https://".toList, "http://".toList].findSome? fun scheme =>
    let rest := text.drop scheme.length
    if !scheme.isPrefixOf text || (rest.takeWhile fun c => !isSpaceChar c).isEmpty then none
    else some (rest.dropWhile fun c => !isSpaceChar c)

/-- `value.replace(pattern, …)`; a match is never empty, so the length of the text is fuel enough. -/
def replaceAll (pattern : List Char → Option (List Char × List Char)) : Nat → List Char → List Char
  | 0, text => text
  | _ + 1, [] => []
  | fuel + 1, c :: cs =>
    match pattern (c :: cs) with
    | some (replacement, rest) => replacement ++ replaceAll pattern fuel rest
    | none => c :: replaceAll pattern fuel cs

/-- `safeSummary(value)` -/
def safeSummary (value : String) : String :=
  let hidden := replaceAll (fun text => (matchCredential text).map fun (kept, rest) =>
    (kept ++ "[redacted]".toList, rest)) value.length value.toList
  let plain := replaceAll (fun text => (matchAddress text).map fun rest => ("[url]".toList, rest))
    hidden.length hidden
  slice500 (String.ofList ((plain.dropWhile isSpaceChar).reverse.dropWhile isSpaceChar).reverse)

example : safeSummary " Token = Bearer abc; see https://x.org/y " = "Token = [redacted]; see [url]" := by
  decide +kernel

/-! ## Records -/

/-- The record of a step that the plan has, without a run. -/
def plannedRecord (at_ : String) (step : ReleaseStep) : ReleaseStepEvidence where
  commandCount := step.commands.length
  description := step.description
  event := .planned
  finishedAt := at_
  id := step.id
  resultSummary := "dry-run: no command executed"
  startedAt := at_

def succeededRecord (step : ReleaseStep) (results : List CommandResult)
    (startedAt finishedAt : String) : ReleaseStepEvidence where
  commandCount := step.commands.length
  description := step.description
  event := .succeeded
  finishedAt
  id := step.id
  resultSummary :=
    " | ".intercalate ((results.map fun result => safeSummary result.stdout).filter (· ≠ ""))
  startedAt

def failedRecord (step : ReleaseStep) (error : Thrown) (startedAt finishedAt : String) :
    ReleaseStepEvidence where
  commandCount := step.commands.length
  description := step.description
  event := .failed
  finishedAt
  id := step.id
  resultSummary := safeSummary (match error with
    | .error _ message => message
    | .other => "unknown error")
  startedAt

def compensatedRecord (step : ReleaseStep) (startedAt finishedAt : String) : ReleaseStepEvidence where
  commandCount := step.rollbackCommands.length
  description := step.description ++ " 补偿"
  event := .compensated
  finishedAt
  id := step.id ++ ":compensation"
  resultSummary := "compensation succeeded"
  startedAt

/-! ## The executor -/

structure ExecutorOptions where
  compensate : Bool
  confirm : Option String
  dryRun : Bool

/--
The commands of a list, one after the other, up to one that fails: what they came to, or what is
thrown. `message` is what is thrown for a result.
-/
def runCommands (message : CommandResult → String) :
    List ReleaseCommand → List CommandResult → ExecutorProg (Except Thrown (List CommandResult))
  | [], results => .ret (.ok results)
  | command :: commands, results => .call (.run command) fun
    | .error error => .ret (.error error)
    | .ok result =>
      if result.exitCode ≠ 0 then .ret (.error (.error false (message result)))
      else runCommands message commands (results ++ [result])

/-- What a forward command of a step says when it fails. -/
def forwardMessage (step : ReleaseStep) (result : CommandResult) : String :=
  step.id ++ " command exited " ++ toString result.exitCode ++ ": " ++ safeSummary result.stderr

/-- What a rollback command of a step says when it fails. -/
def compensationMessage (step : ReleaseStep) (result : CommandResult) : String :=
  "补偿 " ++ step.id ++ " 失败: " ++ safeSummary result.stderr

/-- `compensate(completed, runner, records, now)`, of the completed steps in reverse. -/
def compensate : List ReleaseStep → List ReleaseStepEvidence →
    ExecutorProg (Except Thrown (List ReleaseStepEvidence))
  | [], records => .ret (.ok records)
  | step :: steps, records =>
    if step.rollbackCommands = [] then compensate steps records
    else .call .now fun startedAt =>
      (runCommands (compensationMessage step) step.rollbackCommands []).bind fun
        | .error error => .ret (.error error)
        | .ok _ => .call .now fun finishedAt =>
          compensate steps (records ++ [compensatedRecord step startedAt finishedAt])

/-- The `catch` of the loop: what is done about a step that has failed. -/
def stopAt (plan : ReleasePlan) (options : ExecutorOptions) (step : ReleaseStep)
    (records : List ReleaseStepEvidence) (completed : List ReleaseStep) :
    ExecutorProg (Except ReleaseFailure ReleaseEvidence) :=
  let compensation :=
    if options.compensate then compensate completed.reverse records else .ret (.ok records)
  compensation.bind fun
    -- what `compensate` throws takes the place of the `ReleaseExecutionError`
    | .error error => .ret (.error (.thrown error))
    | .ok records => .ret (.error (.execution ("发布在 " ++ step.id ++ " 停止，后续步骤未执行")
        (evidence plan false records)))

/-- The loop over the steps of a plan. -/
def runSteps (plan : ReleasePlan) (options : ExecutorOptions) :
    List ReleaseStep → List ReleaseStepEvidence → List ReleaseStep →
      ExecutorProg (Except ReleaseFailure ReleaseEvidence)
  | [], records, _ => .ret (.ok (evidence plan false records))
  | step :: steps, records, completed => .call .now fun startedAt =>
    (runCommands (forwardMessage step) step.commands []).bind fun
      | .ok results => .call .now fun finishedAt =>
        runSteps plan options steps (records ++ [succeededRecord step results startedAt finishedAt])
          (if step.mutates then completed ++ [step] else completed)
      | .error error => .call .now fun finishedAt =>
        stopAt plan options step (records ++ [failedRecord step error startedAt finishedAt]) completed

/-- `executeReleasePlan(plan, options)` -/
def executeReleasePlan (plan : ReleasePlan) (options : ExecutorOptions) :
    ExecutorProg (Except ReleaseFailure ReleaseEvidence) :=
  if options.dryRun then .call .now fun at_ =>
    .ret (.ok (evidence plan true (plan.steps.map (plannedRecord at_))))
  else if options.confirm ≠ some plan.planHash then
    .ret (.error (.thrown (.error false "实际执行必须用 --confirm 提供同一份计划的 planHash")))
  else runSteps plan options plan.steps [] []

end InboxServer.Release
