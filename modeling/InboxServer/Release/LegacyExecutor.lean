import InboxServer.Infra.Trace
import InboxServer.Release.LegacyPlan
import InboxServer.Release.Rehearsal

/-!
# The rollback rehearsal

`executeLegacyRehearsal` of `packages/release-operations/src/legacy-rehearsal-executor.ts`, as a
program that reads the clock, gives commands to a runner, asks for the two checks and works on the
temporary directory. Any of these may throw.
-/

namespace InboxServer.Rehearsal

open Infra Release

structure D1CompatibilityResult where
  legacyWriteCount : Nat
  migrationCount : Nat
  stableDigest : String
  deriving DecidableEq

/-! ## Calls -/

/-- The place in the source where the clock is read. -/
inductive Moment where
  | dryRun
  | stepStart (id : LegacyStepId)
  | rto
  /-- In the `try`, when the step has succeeded. -/
  | stepEnd (id : LegacyStepId)
  /-- In the `catch`. -/
  | stepFailure (id : LegacyStepId)
  | cleanupStart
  | cleanupEnd
  deriving DecidableEq

inductive RehearsalCall where
  | now (moment : Moment)
  /-- `mkdtemp(join(tmpdir(), name))` -/
  | mkdtemp (name : String)
  | run (command : ReleaseCommand)
  | identityCheck (manifest : LegacyRehearsalManifest) (repositoryRoot : String)
  | d1Check (manifest : LegacyRehearsalManifest) (repositoryRoot tempRoot : String)
  /-- `rm(path, { force: true, recursive: true })` -/
  | rm (path : String)
  /-- `exists(path)`, which never throws -/
  | fileExists (path : String)
  deriving DecidableEq

@[reducible] def RehearsalCall.Answer : RehearsalCall → Type
  | .now _ => Except Raised TimeValue
  | .mkdtemp _ => Except Raised String
  | .run _ => Except Raised CommandResult
  | .identityCheck .. => Except Raised Unit
  | .d1Check .. => Except Raised D1CompatibilityResult
  | .rm _ => Except Raised Unit
  | .fileExists _ => Bool

abbrev RehearsalProg (α : Type) := Prog RehearsalCall RehearsalCall.Answer α

/-! ## Evidence -/

inductive RecordStatus where
  | failed | planned | succeeded
  deriving DecidableEq

structure LegacyRehearsalStepEvidence where
  commandCount : Nat
  description : String
  finishedAt : String
  /-- `none` for `"cleanup"`. -/
  id : Option LegacyStepId
  resultSummary : String
  startedAt : String
  /-- The name of the event says this too. -/
  status : RecordStatus
  deriving DecidableEq

structure Residuals where
  containers : Int
  networks : Int
  tempFiles : Int
  volumes : Int
  deriving DecidableEq

structure RehearsalIdentity where
  backupId : String
  backupSha256 : String
  cloudflareApiVersion : String
  consoleCommit : String
  migrations : List String
  sourceCommit : String
  threeContainerDigests : LegacyImages
  deriving DecidableEq

structure LegacyRehearsalEvidence where
  /-- `…completed`, or `…failed`. -/
  completed : Bool
  d1Compatibility : Option D1CompatibilityResult
  dryRun : Bool
  identity : RehearsalIdentity
  planHash : String
  projectName : String
  residuals : Residuals
  rtoMilliseconds : Option TimeValue
  runId : String
  steps : List LegacyRehearsalStepEvidence
  deriving DecidableEq

inductive RehearsalFailure where
  /-- A `LegacyRehearsalError`. -/
  | rehearsal (message : String) (evidence : LegacyRehearsalEvidence)
  | thrown (error : Raised)
  deriving DecidableEq

/-- `zeroResiduals()` -/
def zeroResiduals : Residuals := { containers := 0, networks := 0, tempFiles := 0, volumes := 0 }

/-- `JSON.stringify(residuals)` -/
def Residuals.text (residuals : Residuals) : String :=
  "\x7b\"containers\":" ++ toString residuals.containers ++ ",\"networks\":" ++
    toString residuals.networks ++ ",\"tempFiles\":" ++ toString residuals.tempFiles ++
    ",\"volumes\":" ++ toString residuals.volumes ++ "\x7d"

/-- What is done about the steps and the cleanup; `evidence` adds what the plan says. -/
structure EvidenceInput where
  completed : Bool
  d1Compatibility : Option D1CompatibilityResult
  dryRun : Bool
  residuals : Residuals
  rtoMilliseconds : Option TimeValue
  steps : List LegacyRehearsalStepEvidence

/-- `evidence(plan, input)` -/
def evidence (plan : LegacyRehearsalPlan) (input : EvidenceInput) : LegacyRehearsalEvidence where
  completed := input.completed
  d1Compatibility := input.d1Compatibility
  dryRun := input.dryRun
  identity :=
    { backupId := plan.manifest.backup.id
      backupSha256 := plan.manifest.backup.sha256
      cloudflareApiVersion := plan.manifest.cloudflare.apiPreviousVersion
      consoleCommit := plan.manifest.cloudflare.consolePreviousCommit
      migrations := plan.manifest.d1.migrations
      sourceCommit := plan.manifest.sourceCommit
      threeContainerDigests := plan.manifest.images }
  planHash := plan.planHash
  projectName := plan.projectName
  residuals := input.residuals
  rtoMilliseconds := input.rtoMilliseconds
  runId := plan.manifest.runId
  steps := input.steps

/-! ## Summaries -/

/-- `safeSummary(value)` -/
def safeSummary (value : String) : String :=
  hideAll (fun kept => kept ++ "[redacted]".toList) ["Users", "private/tmp"] value

/-- `successSummary(step)` -/
def successSummary (step : LegacyRehearsalStep) : String :=
  match step.id with
  | .d1Compatibility => "D1 legacy write, latest read and migration replay verified"
  | .identityEvidence => "backup and immutable deployment identities verified"
  | .isolationPreflight => "isolated compose validated and legacy runtime images built"
  | .legacyComposeRestore => "legacy server and worker reached healthy state"
  | .reconciliation => "compose health and synthetic backup marker reconciled"
  | .substituteWorkerStop => "substitute worker started and stopped"

/-- `stepRecord(step, startedAt, finishedAt, status, resultSummary)` -/
def stepRecord (step : LegacyRehearsalStep) (startedAt finishedAt : TimeValue)
    (status : RecordStatus) (resultSummary : String) :
    Except Raised LegacyRehearsalStepEvidence := do
  let finishedAt ← isoText finishedAt
  let startedAt ← isoText startedAt
  return { commandCount := step.commands.length, description := step.description, finishedAt,
           id := some step.id, resultSummary, startedAt, status }

/-- The record of a step that the plan has, without a run. -/
def plannedRecord (at_ : String) (step : LegacyRehearsalStep) : LegacyRehearsalStepEvidence where
  commandCount := step.commands.length
  description := step.description
  finishedAt := at_
  id := some step.id
  resultSummary := "dry-run: no command executed"
  startedAt := at_
  status := .planned

/-! ## The reconciliation -/

structure ComposeService where
  health : String
  publishedPorts : Nat
  service : String
  state : String

mutual

/-- `String(value)` -/
def jsonString : Json → String
  | .null => "null"
  | .bool b => if b then "true" else "false"
  | .num text => text
  | .str s => s
  | .arr items => ",".intercalate (joinedItems items)
  | .obj _ => "[object Object]"

/-- The items of an array as `join` writes them: that of `null` is empty. -/
def joinedItems : List Json → List String
  | [] => []
  | .null :: items => "" :: joinedItems items
  | item :: items => jsonString item :: joinedItems items

end

/-- `String(value ?? "")` -/
def jsonStringOr : Option Json → String
  | none | some .null => ""
  | some value => jsonString value

/-- `typeof port === "number" && port > 0` -/
def isPublished : Json → Bool
  | .obj publisher =>
    match publisher.lookup "PublishedPort" with
    | some (.num text) => text ≠ "0" && !text.startsWith "-"
    | _ => false
  | _ => false

/-- One service of the output. -/
def composeService (value : Json) : Except Raised ComposeService :=
  if value = .null then .error (.error "Cannot read properties of null (reading 'Publishers')")
  else
    let item := Json.record (some value)
    let publishers := match item.lookup "Publishers" with
      | some (.arr publishers) => (publishers.filter isPublished).length
      | _ => 0
    .ok { health := jsonStringOr (item.lookup "Health"), publishedPorts := publishers,
          service := jsonStringOr (item.lookup "Service"), state := jsonStringOr (item.lookup "State") }

variable (parse : String → Except String Json)

/-- `JSON.parse(text)`, where `parse` gives the value or the message of the error. -/
def parseJson (text : List Char) : Except Raised Json :=
  match parse (String.ofList text) with
  | .ok value => .ok value
  | .error message => .error (.error message)

/-- `composeServices(stdout)` -/
def composeServices (stdout : String) : Except Raised (List ComposeService) := do
  let text := trimmed stdout.toList
  if text = [] then .error (.error "docker compose ps 未返回服务")
  else if text.head? = some '[' then
    match ← parseJson parse text with
    | .arr items => items.mapM composeService
    | _ => .error (.error "parsed.map is not a function")
  else
    let items ← ((text.splitOn '\n').filter (· ≠ [])).mapM (parseJson parse)
    items.mapM composeService

/-- What the loop says about one service. -/
def assertService (services : List ComposeService) (expected : String) : Except Raised Unit :=
  match services.find? fun candidate => candidate.service = expected with
  | none => .error (.error ("Compose service " ++ expected ++ " 未达到 running/healthy"))
  | some service =>
    if service.state ≠ "running" ∨ service.health ≠ "healthy" then
      .error (.error ("Compose service " ++ expected ++ " 未达到 running/healthy"))
    else if service.publishedPorts > 0 then
      .error (.error ("Compose service " ++ expected ++ " 禁止发布宿主端口"))
    else .ok ()

/-- The output of a command, or nothing where there is none. -/
def stdoutAt (results : List CommandResult) (index : Nat) : String :=
  ((results[index]?).map (·.stdout)).getD ""

/-- `assertReconciliation(plan, results)` -/
def assertReconciliation (plan : LegacyRehearsalPlan) (results : List CommandResult) :
    Except Raised Unit := do
  let services ← composeServices parse (stdoutAt results 0)
  ["postgres", "redis", "server", "worker"].forM (assertService services)
  if String.ofList (trimmed (stdoutAt results 1).toList) ≠ plan.manifest.backup.id ++ "|1" then
    .error (.error "合成备份标记对账失败")

/-! ## A step -/

structure RehearsalOptions where
  confirm : Option String
  dryRun : Bool
  /-- The resolved root of the repository. -/
  repositoryRoot : String

/-- What is known while a step runs. -/
structure StepContext where
  plan : LegacyRehearsalPlan
  repositoryRoot : String
  tempRoot : String

structure StepResults where
  commands : List CommandResult
  d1Compatibility : Option D1CompatibilityResult

/-- The commands of a step, one after the other, up to one that fails. -/
def runCommands (step : LegacyRehearsalStep) :
    List ReleaseCommand → List CommandResult → RehearsalProg (Except Raised (List CommandResult))
  | [], results => .ret (.ok results)
  | command :: commands, results => .call (.run command) fun
    | .error error => .ret (.error error)
    | .ok result =>
      if result.exitCode ≠ 0 then
        .ret (.error (.error (step.id.text ++ " command exited " ++ toString result.exitCode ++ ": " ++
          safeSummary result.stderr)))
      else runCommands step commands (results ++ [result])

/-- The check that the first of the two empty steps is about. -/
def checkIdentity (context : StepContext) (step : LegacyRehearsalStep) :
    RehearsalProg (Except Raised Unit) :=
  if step.id = .identityEvidence then
    .call (.identityCheck context.plan.manifest context.repositoryRoot) .ret
  else .ret (.ok ())

/-- The check that the second is about. -/
def checkD1 (context : StepContext) (step : LegacyRehearsalStep) :
    RehearsalProg (Except Raised (Option D1CompatibilityResult)) :=
  if step.id = .d1Compatibility then
    .call (.d1Check context.plan.manifest context.repositoryRoot context.tempRoot) fun
      | .ok result => .ret (.ok (some result))
      | .error error => .ret (.error error)
  else .ret (.ok none)

/-- `executeStep(step, context)` -/
def executeStep (context : StepContext) (step : LegacyRehearsalStep) :
    RehearsalProg (Except Raised StepResults) :=
  (checkIdentity context step).andThen fun _ =>
    (checkD1 context step).andThen fun d1Compatibility =>
      (runCommands step step.commands []).andThen fun commands =>
        .ret (.ok { commands, d1Compatibility })

/-- The variables of `executeLegacyRehearsal`. -/
structure Progress where
  d1Compatibility : Option D1CompatibilityResult
  failure : Raised
  records : List LegacyRehearsalStepEvidence
  rtoMilliseconds : Option TimeValue
  rtoStartedAt : Option TimeValue

/-- The start that the restore is measured from; the other steps are not measured. -/
def measuredFrom (step : LegacyRehearsalStep) (progress : Progress) : Option TimeValue :=
  if step.id = .legacyComposeRestore then progress.rtoStartedAt else none

/-- How long the restore has taken; what is thrown when that is too long. -/
def measureRto (plan : LegacyRehearsalPlan) (step : LegacyRehearsalStep) (progress : Progress) :
    RehearsalProg (Progress × Option Raised) :=
  match measuredFrom step progress with
  | none => .ret (progress, none)
  | some rtoStartedAt => .call (.now .rto) fun
    | .error error => .ret (progress, some error)
    | .ok time =>
      let rto := elapsed time rtoStartedAt
      let bound : Int := plan.manifest.rtoSeconds * 1000
      let progress := { progress with rtoMilliseconds := some rto }
      if exceeds rto bound then
        .ret (progress, some (.error ("RTO " ++ toString (rto.getD 0) ++ "ms 超过 " ++
          toString bound ++ "ms")))
      else .ret (progress, none)

/-- The end of the `try`: the record of the step. -/
def recordSuccess (step : LegacyRehearsalStep) (startedAt : TimeValue) (progress : Progress) :
    RehearsalProg (Progress × Option Raised) :=
  .call (.now (.stepEnd step.id)) fun
    | .error error => .ret (progress, some error)
    | .ok finishedAt =>
      match stepRecord step startedAt finishedAt .succeeded (successSummary step) with
      | .error error => .ret (progress, some error)
      | .ok record => .ret ({ progress with records := progress.records ++ [record] }, none)

/-- What is looked at once the commands of a step have run. -/
def judge (plan : LegacyRehearsalPlan) (step : LegacyRehearsalStep) (results : StepResults) :
    Except Raised Unit :=
  if step.id = .reconciliation then assertReconciliation parse plan results.commands else .ok ()

def noteD1 (step : LegacyRehearsalStep) (results : StepResults) (progress : Progress) : Progress :=
  if step.id = .d1Compatibility then { progress with d1Compatibility := results.d1Compatibility }
  else progress

/-- The `try`: the variables when it is left, and what was thrown in it. -/
def attemptStep (context : StepContext) (step : LegacyRehearsalStep) (startedAt : TimeValue)
    (progress : Progress) : RehearsalProg (Progress × Option Raised) :=
  (executeStep context step).bind fun
    | .error error => .ret (progress, some error)
    | .ok results => (measureRto context.plan step progress).bind fun
      | (progress, some error) => .ret (progress, some error)
      | (progress, none) =>
        match judge parse context.plan step results with
        | .error error => .ret (noteD1 step results progress, some error)
        | .ok () => recordSuccess step startedAt (noteD1 step results progress)

/-- The `catch`: the failure and the record of it. -/
def recordFailure (step : LegacyRehearsalStep) (startedAt : TimeValue) (progress : Progress)
    (error : Raised) : RehearsalProg (Except Raised Progress) :=
  .call (.now (.stepFailure step.id)) fun
    | .error thrown => .ret (.error thrown)
    | .ok finishedAt =>
      match stepRecord step startedAt finishedAt .failed
          (safeSummary (error.messageOr "unknown error")) with
      | .error thrown => .ret (.error thrown)
      | .ok record =>
        .ret (.ok { progress with failure := error, records := progress.records ++ [record] })

/-- The RTO is counted from the start of this one step. -/
def noteStart (step : LegacyRehearsalStep) (startedAt : TimeValue) (progress : Progress) : Progress :=
  if step.id = .substituteWorkerStop then { progress with rtoStartedAt := some startedAt }
  else progress

/-- The loop over the steps: the variables after it, or what is thrown out of it. -/
def runSteps (context : StepContext) :
    List LegacyRehearsalStep → Progress → RehearsalProg (Except Raised Progress)
  | [], progress => .ret (.ok progress)
  | step :: steps, progress =>
    if progress.failure.truthy then .ret (.ok progress)
    else .call (.now (.stepStart step.id)) fun
      | .error error => .ret (.error error)
      | .ok startedAt =>
        (attemptStep parse context step startedAt (noteStart step startedAt progress)).bind fun
          | (progress, none) => runSteps context steps progress
          | (progress, some error) =>
            (recordFailure step startedAt progress error).andThen (runSteps context steps)

/-! ## The cleanup -/

structure Cleanup where
  failure : Raised
  record : LegacyRehearsalStepEvidence
  residuals : Residuals

/-- The cleanup commands: what each came to, and the first failure. -/
def runCleanup : List ReleaseCommand → List CommandResult → Raised →
    RehearsalProg (List CommandResult × Raised)
  | [], results, failure => .ret (results, failure)
  | command :: commands, results, failure => .call (.run command) fun
    | .ok result => runCleanup commands (results ++ [result])
        (if result.exitCode ≠ 0 then failure.orElse (.error ("cleanup command exited " ++
            toString result.exitCode ++ ": " ++ safeSummary result.stderr))
          else failure)
    | .error error => runCleanup commands
        (results ++ [{ exitCode := 1, stderr := safeSummary (error.messageOr "unknown"), stdout := "" }])
        (failure.orElse error)

/-- The lines of a text that are not blank. -/
def lineCount (text : String) : Nat :=
  ((text.toList.splitOn '\n').filter fun line => trimmed line ≠ []).length

/-- `resultCount(result)` -/
def resultCount : Option CommandResult → Int
  | none => -1
  | some result => if result.exitCode ≠ 0 then -1 else lineCount result.stdout

/-- What is left, by the outputs of the commands and by the temporary directory. -/
def countResiduals (results : List CommandResult) (tempLeft : Bool) : Residuals where
  containers := resultCount results[1]?
  networks := resultCount results[2]?
  tempFiles := if tempLeft then 1 else 0
  volumes := resultCount results[3]?

/-- The failure of the cleanup when the residuals have been counted. -/
def residualFailure (residuals : Residuals) (failure : Raised) : Raised :=
  if residuals ≠ zeroResiduals then
    failure.orElse (.error ("cleanup 残留不为 0: " ++ residuals.text))
  else failure

/-- The record of the cleanup. -/
def cleanupRecord (plan : LegacyRehearsalPlan) (startedAt finishedAt : TimeValue)
    (residuals : Residuals) (failure : Raised) : Except Raised LegacyRehearsalStepEvidence := do
  let finishedAt ← isoText finishedAt
  let startedAt ← isoText startedAt
  return { commandCount := plan.cleanupCommands.length
           description := "无论成功或失败都清理临时容器、网络、卷和文件"
           finishedAt
           id := none
           resultSummary :=
             if failure.truthy then safeSummary (failure.messageOr "cleanup failed")
             else "cleanup completed: " ++ residuals.text
           startedAt
           status := if failure.truthy then .failed else .succeeded }

/-- The rest of `cleanupRehearsal`, once the commands have run. -/
def finishCleanup (plan : LegacyRehearsalPlan) (tempRoot : String) (startedAt : TimeValue)
    (results : List CommandResult) (failure : Raised) : RehearsalProg (Except Raised Cleanup) :=
  .call (.rm tempRoot) fun
    | .error error => .ret (.error error)
    | .ok () => .call (.fileExists tempRoot) fun tempLeft =>
      let residuals := countResiduals results tempLeft
      let failure := residualFailure residuals failure
      .call (.now .cleanupEnd) fun
        | .error error => .ret (.error error)
        | .ok finishedAt =>
          match cleanupRecord plan startedAt finishedAt residuals failure with
          | .error error => .ret (.error error)
          | .ok record => .ret (.ok { failure, record, residuals })

/-- `cleanupRehearsal(plan, runner, tempRoot, now)` -/
def cleanupRehearsal (plan : LegacyRehearsalPlan) (tempRoot : String) :
    RehearsalProg (Except Raised Cleanup) :=
  .call (.now .cleanupStart) fun
    | .error error => .ret (.error error)
    | .ok startedAt => (runCleanup plan.cleanupCommands [] .undefined).bind fun (results, failure) =>
      finishCleanup plan tempRoot startedAt results failure

/-! ## The rehearsal -/

/-- What the rehearsal ends with, once the cleanup is done. -/
def conclude (plan : LegacyRehearsalPlan) (progress : Progress) (cleanup : Cleanup) :
    Except RehearsalFailure LegacyRehearsalEvidence :=
  let failure := progress.failure.orElse cleanup.failure
  let finalEvidence := evidence plan
    { completed := !failure.truthy
      d1Compatibility := progress.d1Compatibility
      dryRun := false
      residuals := cleanup.residuals
      rtoMilliseconds := progress.rtoMilliseconds
      steps := progress.records ++ [cleanup.record] }
  if failure.truthy then
    .error (.rehearsal ("隔离回滚演练失败: " ++ safeSummary (failure.messageOr "unknown error"))
      finalEvidence)
  else .ok finalEvidence

/-- What is thrown as it is. -/
def rethrow {α : Type} (p : RehearsalProg (Except Raised α)) :
    RehearsalProg (Except RehearsalFailure α) :=
  p.bind fun
    | .ok a => .ret (.ok a)
    | .error error => .ret (.error (.thrown error))

/-- The rehearsal once the temporary directory exists. -/
def rehearse (context : StepContext) :
    RehearsalProg (Except RehearsalFailure LegacyRehearsalEvidence) :=
  (rethrow (runSteps parse context context.plan.steps
    { d1Compatibility := none, failure := .undefined, records := [], rtoMilliseconds := none,
      rtoStartedAt := none })).andThen fun progress =>
    (rethrow (cleanupRehearsal context.plan context.tempRoot)).andThen fun cleanup =>
      .ret (conclude context.plan progress cleanup)

/-- The evidence of a dry run. -/
def plannedEvidence (plan : LegacyRehearsalPlan) (at_ : String) : LegacyRehearsalEvidence :=
  evidence plan
    { completed := true, d1Compatibility := none, dryRun := true, residuals := zeroResiduals,
      rtoMilliseconds := none, steps := plan.steps.map (plannedRecord at_) }

/-- `executeLegacyRehearsal(plan, options)` -/
def executeLegacyRehearsal (plan : LegacyRehearsalPlan) (options : RehearsalOptions) :
    RehearsalProg (Except RehearsalFailure LegacyRehearsalEvidence) :=
  if options.dryRun then .call (.now .dryRun) fun
    | .error error => .ret (.error (.thrown error))
    | .ok at_ =>
      match isoText at_ with
      | .error error => .ret (.error (.thrown error))
      | .ok at_ => .ret (.ok (plannedEvidence plan at_))
  else if options.confirm ≠ some plan.planHash then
    .ret (.error (.thrown (.error "实际演练必须用 --confirm 提供同一份计划的 planHash")))
  else .call (.mkdtemp ("inbox-" ++ plan.manifest.runId ++ "-")) fun
    | .error error => .ret (.error (.thrown error))
    | .ok tempRoot => rehearse parse { plan, repositoryRoot := options.repositoryRoot, tempRoot }

end InboxServer.Rehearsal
