import InboxServer.Infra.Trace
import InboxServer.Release.Rehearsal
import InboxServer.Release.StatePlan

/-!
# The state-restore rehearsal

`executeStateRestoreRehearsal` of `packages/release-operations/src/state-restore-executor.ts`, as a
program that reads the clock, works on files and calls the hook. Any of these may throw. A caller
without a hook is one with a hook that does nothing.
-/

namespace InboxServer.StateRestore

open Infra Release

/-- What is taken from the platform. -/
structure Platform where
  /-- `createHash("sha256").update(bytes).digest("hex")` -/
  sha256 : List UInt8 → String
  /-- `bytes.toString("utf8")` -/
  utf8 : List UInt8 → String
  /-- `JSON.parse(text)`, where it does not throw. -/
  parseJson : String → Option Json
  /-- `new Date(text).getTime()` -/
  dateMs : String → TimeValue

/-! ## Calls -/

/-- The place in the source where the clock is read. -/
inductive Moment where
  | dryRun | preflightStart | boundary | restoreEnd | startupStart | startupEnd | reconciliationStart
  | rto | reconciliationEnd
  /-- In the `catch`. -/
  | failure
  | cleanupStart | cleanupEnd
  deriving DecidableEq

structure SnapshotStat where
  mode : Nat
  size : Nat
  isFile : Bool
  isSymbolicLink : Bool
  deriving DecidableEq

inductive RestoreCall where
  | now (moment : Moment)
  /-- The order in which as many promises of one `Promise.all` get their turns. -/
  | arrange (count : Nat)
  | lstat (path : String)
  /-- `io.lstat(path)` in `exists(path, io)` -/
  | lstatLeft (path : String)
  | readFile (path : String)
  /-- `mkdtemp(join(tmpdir(), name))` -/
  | mkdtemp (name : String)
  | mkdir (path : String)
  | writeFile (path : String) (bytes : List UInt8)
  | chmod (path : String) (mode : Nat)
  | afterRestore (root : String)
  | rm (path : String)
  deriving DecidableEq

/-- The directory that is created has a name. -/
@[reducible] def RestoreCall.Answer : RestoreCall → Type
  | .now _ => Except Raised TimeValue
  | .arrange count => { order : List Nat // order.Perm (List.range count) }
  | .lstat _ | .lstatLeft _ => Except Raised SnapshotStat
  | .readFile _ => Except Raised (List UInt8)
  | .mkdtemp _ => Except Raised { path : String // path ≠ "" }
  | .mkdir _ | .writeFile .. | .chmod .. | .afterRestore _ | .rm _ => Except Raised Unit

abbrev RestoreProg (α : Type) := Prog RestoreCall RestoreCall.Answer α

/-! ## Evidence -/

structure StateRestoreStateEvidence where
  reconciled : Bool
  recordCount : Nat
  restoredSha256 : String
  sourceSha256 : String
  stableId : String
  stateKind : StateKind
  deriving DecidableEq

inductive RecordStatus where
  | failed | planned | succeeded
  deriving DecidableEq

structure StateRestoreStepEvidence where
  description : String
  finishedAt : String
  id : StateStepId
  resultSummary : String
  startedAt : String
  status : RecordStatus
  deriving DecidableEq

inductive EvidenceEvent where
  | completed | failed | planned
  deriving DecidableEq

structure StateRestoreEvidence where
  observedMilliseconds : Option TimeValue
  withinCandidate : Option Bool
  sensitiveMatches : Nat
  dryRun : Bool
  event : EvidenceEvent
  planHash : String
  tempDirs : Nat
  restoreName : String
  rtoMilliseconds : Option TimeValue
  runId : String
  states : List StateRestoreStateEvidence
  steps : List StateRestoreStepEvidence
  deriving DecidableEq

inductive RestoreFailure where
  /-- A `StateRestoreRehearsalError`. -/
  | rehearsal (message : String) (evidence : StateRestoreEvidence)
  | thrown (error : Raised)
  deriving DecidableEq

/-- The name of the event of a record. -/
def StateRestoreStepEvidence.event (record : StateRestoreStepEvidence) : String :=
  "operations.state_restore_rehearsal." ++
    (if record.id = .cleanup then "cleanup_" else "step_") ++
    (match record.status with
      | .failed => "failed"
      | .planned => "planned"
      | .succeeded => "completed")

def EvidenceEvent.text : EvidenceEvent → String
  | .completed => "operations.state_restore_rehearsal.completed"
  | .failed => "operations.state_restore_rehearsal.failed"
  | .planned => "operations.state_restore_rehearsal.planned"

def RecordStatus.text : RecordStatus → String
  | .failed => "failed"
  | .planned => "planned"
  | .succeeded => "succeeded"

/-- What is done; `evidence` adds what the plan says. -/
structure EvidenceInput where
  candidateObserved : Option TimeValue
  dryRun : Bool
  event : EvidenceEvent
  tempDirs : Nat
  rtoMilliseconds : Option TimeValue
  states : List StateRestoreStateEvidence
  steps : List StateRestoreStepEvidence

/-! ## What is sensitive -/

/-- The matches of a global pattern, from left to right; a match is never empty. -/
def countMatches (pattern : List Char → Option (List Char)) : Nat → List Char → Nat
  | 0, _ | _, [] => 0
  | fuel + 1, c :: cs =>
    match pattern (c :: cs) with
    | some rest => 1 + countMatches pattern fuel rest
    | none => countMatches pattern fuel cs

/-- `https?:\/\/` in any letter case: what follows it. -/
def matchScheme (text : List Char) : Option (List Char) :=
  ["https://", "http://"].findSome? fun scheme => stripKeyword scheme.toList text

/-- `(?:authorization|…)\s*[=:]` in any letter case: what follows it. -/
def matchField (text : List Char) : Option (List Char) :=
  summaryKeywords.findSome? fun k =>
    match (stripKeyword k.toList text).map (List.dropWhile isSpaceChar) with
    | some (c :: rest) => if c = '=' || c = ':' then some rest else none
    | _ => none

/-- `sensitiveMatches(value)` -/
def sensitiveMatches (value : String) : Nat :=
  countMatches matchScheme value.length value.toList + countMatches matchField value.length value.toList

def jsonNat (n : Nat) : Json := .num (toString n)

/-- A number as `JSON.stringify` writes it: `NaN` becomes `null`. -/
def jsonTime : Option TimeValue → Json
  | some (some n) => .num (toString n)
  | some none | none => .null

def snapshotJson (snapshot : StateSnapshotManifest) : Json :=
  .obj [("fileCount", jsonNat 1), ("path", .str snapshot.path),
    ("recordCount", jsonNat snapshot.recordCount), ("schemaVersion", jsonNat 1),
    ("sha256", .str snapshot.sha256), ("snapshotId", .str snapshot.snapshotId),
    ("stableId", .str snapshot.stableId), ("stateKind", .str snapshot.stateKind.text)]

def manifestJson (manifest : StateRestoreManifest) : Json :=
  .obj [("candidateRpoSeconds", jsonNat 86400), ("capturedAt", .str manifest.capturedAt),
    ("rpoStatus", .str "unapproved"), ("runId", .str manifest.runId), ("schemaVersion", jsonNat 1),
    ("snapshots", .arr (manifest.snapshots.map snapshotJson)),
    ("sourceCommit", .str manifest.sourceCommit)]

def stateJson (state : StateRestoreStateEvidence) : Json :=
  .obj [("fileCount", jsonNat 1), ("mode", .str "0600"), ("reconciled", .bool state.reconciled),
    ("recordCount", jsonNat state.recordCount), ("restoredSha256", .str state.restoredSha256),
    ("schemaVersion", jsonNat 1), ("sourceSha256", .str state.sourceSha256),
    ("stableId", .str state.stableId), ("stateKind", .str state.stateKind.text)]

def stepJson (record : StateRestoreStepEvidence) : Json :=
  .obj [("description", .str record.description), ("event", .str record.event),
    ("finishedAt", .str record.finishedAt), ("id", .str record.id.text),
    ("resultSummary", .str record.resultSummary), ("startedAt", .str record.startedAt),
    ("status", .str record.status.text)]

/-- `{ ...input, manifest: plan.manifest }` -/
def inputJson (plan : StateRestorePlan) (input : EvidenceInput) : Json :=
  .obj [("candidateObserved", jsonTime input.candidateObserved), ("dryRun", .bool input.dryRun),
    ("event", .str input.event.text), ("residuals", .obj [("tempDirs", jsonNat input.tempDirs)]),
    ("rtoMilliseconds", jsonTime input.rtoMilliseconds),
    ("states", .arr (input.states.map stateJson)), ("steps", .arr (input.steps.map stepJson)),
    ("manifest", manifestJson plan.manifest)]

/-- `time >= 0 && time <= 86_400_000`, which `NaN` is not. -/
def withinDay : TimeValue → Bool
  | some n => 0 ≤ n && n ≤ 86400000
  | none => false

/-- `evidence(plan, input)` -/
def evidence (plan : StateRestorePlan) (input : EvidenceInput) : StateRestoreEvidence where
  observedMilliseconds := input.candidateObserved
  withinCandidate := input.candidateObserved.map withinDay
  sensitiveMatches := sensitiveMatches (inputJson plan input).stringify
  dryRun := input.dryRun
  event := input.event
  planHash := plan.planHash
  tempDirs := input.tempDirs
  restoreName := plan.restoreName
  rtoMilliseconds := input.rtoMilliseconds
  runId := plan.manifest.runId
  states := input.states
  steps := input.steps

/-! ## Records -/

/-- `safeSummary(error)` -/
def safeSummary (error : Raised) : String :=
  hideAll (fun _ => "[credential]".toList) ["Users", "private/tmp", "tmp", "var"]
    (error.messageOr "unknown error")

/-- `completed(step, startedAt, finishedAt, resultSummary)` -/
def completed (step : StateRestoreStep) (startedAt finishedAt : TimeValue) (resultSummary : String) :
    Except Raised StateRestoreStepEvidence := do
  let finishedAt ← isoText finishedAt
  let startedAt ← isoText startedAt
  return { description := step.description, finishedAt, id := step.id, resultSummary, startedAt,
           status := .succeeded }

/-- `failed(step, at, error)` -/
def failed (step : StateRestoreStep) (at_ : TimeValue) (error : Raised) :
    Except Raised StateRestoreStepEvidence := do
  let text ← isoText at_
  return { description := step.description, finishedAt := text, id := step.id
           resultSummary := safeSummary error, startedAt := text, status := .failed }

/-- `step(plan, id)` -/
def findStep (plan : StateRestorePlan) (id : StateStepId) : Except Raised StateRestoreStep :=
  match plan.steps.find? fun candidate => candidate.id = id with
  | some step => .ok step
  | none => .error (.error ("计划缺少 " ++ id.text ++ " 步骤"))

/-! ## Snapshots -/

structure SnapshotPayload where
  records : List Fields
  stableId : String
  stateKind : StateKind

structure ValidatedSnapshot where
  bytes : List UInt8
  manifest : StateSnapshotManifest
  payload : SnapshotPayload
  sha256 : String

/-- `record(value, path)` -/
def record (path : String) : Json → Except Raised Fields
  | .obj fields => .ok fields
  | _ => .error (.error (path ++ " 必须是对象"))

/-- `exactKeys(value, allowed, path)` -/
def exactKeys (value : Fields) (allowed : List String) (path : String) : Except Raised Unit :=
  if value.any (fun field => field.1 ∉ allowed) ||
      allowed.any (fun key => (value.lookup key).isNone) then
    .error (.error (path ++ " 字段不符合固定 schema"))
  else .ok ()

def recordFields : StateKind → List String
  | .browser => ["authenticated", "profile"]
  | .warp => ["registrationId", "status"]
  | .worker => ["key", "status"]

def isString : Option Json → Bool
  | some (.str _) => true
  | _ => false

/-- What a record of the kind holds. -/
def recordValid (item : Fields) : StateKind → Bool
  | .browser => item.lookup "authenticated" = some (.bool false) && isString (item.lookup "profile")
  | .warp => isString (item.lookup "registrationId") && item.lookup "status" = some (.str "registered")
  | .worker => isString (item.lookup "key") && item.lookup "status" = some (.str "ready")

/-- `parseRecord(kind, value, index)` -/
def parseRecord (kind : StateKind) (value : Json) (index : Nat) : Except Raised Fields := do
  let path := "snapshot.records[" ++ toString index ++ "]"
  let item ← record path value
  exactKeys item (recordFields kind) path
  if recordValid item kind then .ok item
  else .error (.error (kind.text ++ " 合成记录格式无效"))

/-- `parseSnapshot(bytes, expectedKind)` -/
def parseSnapshot (platform : Platform) (bytes : List UInt8) (expectedKind : StateKind) :
    Except Raised SnapshotPayload := do
  match platform.parseJson (platform.utf8 bytes) with
  | none => .error (.error "快照不是有效 JSON")
  | some value =>
    let root ← record "snapshot" value
    exactKeys root ["records", "schemaVersion", "stableId", "stateKind"] "snapshot"
    if root.lookup "schemaVersion" ≠ some (.num "1") then
      .error (.error "snapshot.schemaVersion 必须为 1")
    else if root.lookup "stateKind" ≠ some (.str expectedKind.text) then
      .error (.error "snapshot.stateKind 与 manifest 不一致")
    else
      match (root.lookup "stableId").bind Json.nonEmptyString? with
      | none => .error (.error "snapshot.stableId 必须是非空字符串")
      | some stableId =>
        match root.lookup "records" with
        | some (.arr items) =>
          let records ← items.zipIdx.mapM fun item => parseRecord expectedKind item.1 item.2
          if sensitiveMatches (platform.utf8 bytes) ≠ 0 then .error (.error "合成快照包含敏感模式")
          else .ok { records, stableId, stateKind := expectedKind }
        | _ => .error (.error "snapshot.records 必须是数组")

/-- What `assertSnapshotIdentity` compares. -/
def identityMatches (payload : SnapshotPayload) (manifest : StateSnapshotManifest) : Bool :=
  payload.stateKind = manifest.stateKind && payload.stableId = manifest.stableId &&
    payload.records.length = manifest.recordCount

/-- `assertSnapshotIdentity(payload, manifest)` -/
def assertSnapshotIdentity (payload : SnapshotPayload) (manifest : StateSnapshotManifest) :
    Except Raised Unit :=
  if identityMatches payload manifest then .ok ()
  else .error (.error "快照 schema、类别、稳定标识或记录数与 manifest 不一致")

structure RestoreOptions where
  confirm : Option String
  dryRun : Bool
  /-- `resolveSourcePath(path, repositoryRoot)`, for the root of the repository. -/
  resolveSourcePath : String → String

/-- The parts of `validateSourceSnapshot` that follow the two calls. -/
def judgeStat (stat : SnapshotStat) : Except Raised Unit :=
  if stat.isSymbolicLink || !stat.isFile then .error (.error "快照必须是普通文件且禁止符号链接")
  else if stat.size > 65536 then .error (.error "快照超过 64 KiB 限制")
  else .ok ()

def judgeSource (platform : Platform) (manifest : StateSnapshotManifest) (bytes : List UInt8) :
    Except Raised ValidatedSnapshot := do
  let sha256 := platform.sha256 bytes
  if sha256 ≠ manifest.sha256 then .error (.error "合成快照 sha256 与 manifest 不一致")
  else
    let payload ← parseSnapshot platform bytes manifest.stateKind
    assertSnapshotIdentity payload manifest
    return { bytes, manifest, payload, sha256 }

/-- `validateSourceSnapshot(manifest, repositoryRoot, io)` -/
def validateSourceSnapshot (platform : Platform) (options : RestoreOptions)
    (manifest : StateSnapshotManifest) : RestoreProg (Except Raised ValidatedSnapshot) :=
  let path := options.resolveSourcePath manifest.path
  .call (.lstat path) fun
    | .error error => .ret (.error error)
    | .ok stat =>
      match judgeStat stat with
      | .error error => .ret (.error error)
      | .ok () => .call (.readFile path) fun
        | .error error => .ret (.error error)
        | .ok bytes => .ret (judgeSource platform manifest bytes)

/-- What the promises of the `Promise.all` have come to, by their places, the latest first. -/
abbrev Settled := List (Nat × Except Raised ValidatedSnapshot)

/-- The promises take their turns; one that has failed does not stop the others. -/
def validateAll (platform : Platform) (options : RestoreOptions)
    (snapshots : List StateSnapshotManifest) : List Nat → Settled → RestoreProg Settled
  | [], settled => .ret settled
  | i :: order, settled =>
    match snapshots[i]? with
    | none => validateAll platform options snapshots order settled
    | some snapshot => (validateSourceSnapshot platform options snapshot).bind fun outcome =>
      validateAll platform options snapshots order ((i, outcome) :: settled)

/-- A promise that has failed. -/
def rejection : Nat × Except Raised ValidatedSnapshot → Option Raised
  | (_, .error error) => some error
  | (_, .ok _) => none

/-- `Promise.all`: the first failure, or the results in their places. -/
def promiseAll (count : Nat) (settled : Settled) : Except Raised (List ValidatedSnapshot) :=
  match settled.reverse.findSome? rejection with
  | some error => .error error
  | none => .ok ((List.range count).filterMap fun i =>
    match settled.lookup i with
    | some (.ok snapshot) => some snapshot
    | _ => none)

/-- `join(restoreRoot, stateKind)` -/
def stateDirectory (root : String) (kind : StateKind) : String := root ++ "/" ++ kind.text

/-- `join(restoreRoot, stateKind, "state.json")` -/
def stateFile (root : String) (kind : StateKind) : String := stateDirectory root kind ++ "/state.json"

def judgeRestoredStat (stat : SnapshotStat) : Except Raised Unit :=
  if stat.isSymbolicLink || !stat.isFile then .error (.error "恢复目标必须是普通文件")
  else if stat.mode &&& 0o777 ≠ 0o600 then .error (.error "恢复目标权限必须为 0600")
  else .ok ()

def judgeRestored (platform : Platform) (source : ValidatedSnapshot) (bytes : List UInt8) :
    Except Raised StateRestoreStateEvidence := do
  let restoredSha256 := platform.sha256 bytes
  let payload ← parseSnapshot platform bytes source.manifest.stateKind
  assertSnapshotIdentity payload source.manifest
  if restoredSha256 ≠ source.sha256 then .error (.error "恢复目标摘要与源快照不一致")
  else return { reconciled := true, recordCount := payload.records.length, restoredSha256,
                sourceSha256 := source.sha256, stableId := payload.stableId,
                stateKind := payload.stateKind }

/-- `validateRestoredSnapshot(source, restoreRoot, io)` -/
def validateRestoredSnapshot (platform : Platform) (source : ValidatedSnapshot) (root : String) :
    RestoreProg (Except Raised StateRestoreStateEvidence) :=
  let path := stateFile root source.manifest.stateKind
  .call (.lstat path) fun
    | .error error => .ret (.error error)
    | .ok stat =>
      match judgeRestoredStat stat with
      | .error error => .ret (.error error)
      | .ok () => .call (.readFile path) fun
        | .error error => .ret (.error error)
        | .ok bytes => .ret (judgeRestored platform source bytes)

/-! ## The `try` -/

/-- The variables of `executeStateRestoreRehearsal`; they keep their values when something throws. -/
structure Vars where
  activeStep : Option StateRestoreStep
  candidateObserved : Option TimeValue
  records : List StateRestoreStepEvidence
  restoreRoot : Option String
  rtoMilliseconds : Option TimeValue
  states : List StateRestoreStateEvidence

/-- A part of the `try`: the variables after it, and its value or what it throws. -/
abbrev Trying (α : Type) := RestoreProg (Vars × Except Raised α)

/-- One part after the other. -/
def Trying.next {α β : Type} (p : Trying α) (f : Vars → α → Trying β) : Trying β :=
  p.bind fun
    | (vars, .ok a) => f vars a
    | (vars, .error error) => .ret (vars, .error error)

/-- A call that may throw. -/
def tryNow (vars : Vars) (moment : Moment) : Trying TimeValue :=
  .call (.now moment) fun outcome => .ret (vars, outcome)

/-- Something without calls that may throw. -/
def tryPure {α : Type} (vars : Vars) (outcome : Except Raised α) : Trying α := .ret (vars, outcome)

/-- `activeStep = step(plan, id)` -/
def enter (plan : StateRestorePlan) (vars : Vars) (id : StateStepId) : Trying StateRestoreStep :=
  match findStep plan id with
  | .ok step => .ret ({ vars with activeStep := some step }, .ok step)
  | .error error => .ret (vars, .error error)

/-- `records.push(completed(step, startedAt, finishedAt, resultSummary))` -/
def pushCompleted (vars : Vars) (step : StateRestoreStep) (startedAt finishedAt : TimeValue)
    (resultSummary : String) : Trying Unit :=
  match completed step startedAt finishedAt resultSummary with
  | .ok record => .ret ({ vars with records := vars.records ++ [record] }, .ok ())
  | .error error => .ret (vars, .error error)

/-- `time < 0 || time > 86_400_000`, which `NaN` is not. -/
def outsideDay : TimeValue → Bool
  | some n => n < 0 || n > 86400000
  | none => false

/-- The snapshots, validated, and the time at which the restore begins. -/
def preflight (platform : Platform) (options : RestoreOptions) (plan : StateRestorePlan)
    (vars : Vars) : Trying (List ValidatedSnapshot × TimeValue) :=
  (enter plan vars .snapshotPreflight).next fun vars step =>
    (tryNow vars .preflightStart).next fun vars startedAt =>
      .call (.arrange plan.manifest.snapshots.length) fun order =>
        (validateAll platform options plan.manifest.snapshots order.1 []).bind fun settled =>
          (tryPure vars (promiseAll plan.manifest.snapshots.length settled)).next fun vars snapshots =>
            (tryNow vars .boundary).next fun vars boundary =>
              let observed := elapsed boundary (platform.dateMs plan.manifest.capturedAt)
              let vars := { vars with candidateObserved := some observed }
              if outsideDay observed then
                .ret (vars, .error (.error "候选 RPO 窗口不满足 24 小时限制"))
              else (pushCompleted vars step startedAt boundary "three fixed snapshots verified").next
                fun vars _ => .ret (vars, .ok (snapshots, boundary))

/-- The files of the snapshots, one after the other. -/
def restoreFiles (root : String) : List ValidatedSnapshot → RestoreProg (Except Raised Unit)
  | [] => .ret (.ok ())
  | snapshot :: snapshots => .call (.mkdir (stateDirectory root snapshot.manifest.stateKind)) fun
    | .error error => .ret (.error error)
    | .ok () => .call (.writeFile (stateFile root snapshot.manifest.stateKind) snapshot.bytes) fun
      | .error error => .ret (.error error)
      | .ok () => .call (.chmod (stateFile root snapshot.manifest.stateKind) 0o600) fun
        | .error error => .ret (.error error)
        | .ok () => restoreFiles root snapshots

/-- The restore, which gives the directory that it has created. -/
def restore (plan : StateRestorePlan) (vars : Vars) (snapshots : List ValidatedSnapshot)
    (boundary : TimeValue) : Trying String :=
  (enter plan vars .restore).next fun vars step =>
    .call (.mkdtemp (plan.restoreName ++ "-")) fun
      | .error error => .ret (vars, .error error)
      | .ok root =>
        let vars := { vars with restoreRoot := some root.1 }
        (restoreFiles root.1 snapshots).bind fun
          | .error error => .ret (vars, .error error)
          | .ok () => (tryNow vars .restoreEnd).next fun vars finishedAt =>
            (pushCompleted vars step boundary finishedAt "three synthetic states restored").next
              fun vars _ => .ret (vars, .ok root.1)

/-- The restored files are read again, one after the other. -/
def validateRestored (platform : Platform) (root : String) :
    Vars → List ValidatedSnapshot → Trying Unit
  | vars, [] => .ret (vars, .ok ())
  | vars, snapshot :: snapshots => (validateRestoredSnapshot platform snapshot root).bind fun
    | .error error => .ret (vars, .error error)
    | .ok state =>
      validateRestored platform root { vars with states := vars.states ++ [state] } snapshots

def startupGate (platform : Platform) (plan : StateRestorePlan) (vars : Vars)
    (snapshots : List ValidatedSnapshot) (root : String) : Trying Unit :=
  (enter plan vars .startupGate).next fun vars step =>
    (tryNow vars .startupStart).next fun vars startedAt =>
      .call (.afterRestore root) fun
        | .error error => .ret (vars, .error error)
        | .ok () => (validateRestored platform root vars snapshots).next fun vars _ =>
          (tryNow vars .startupEnd).next fun vars finishedAt =>
            pushCompleted vars step startedAt finishedAt "synthetic startup gate passed"

def reconcile (plan : StateRestorePlan) (vars : Vars) (boundary : TimeValue) : Trying Unit :=
  (enter plan vars .reconciliation).next fun vars step =>
    (tryNow vars .reconciliationStart).next fun vars startedAt =>
      if vars.states.length ≠ plan.manifest.snapshots.length ∨
          vars.states.any (fun state => !state.reconciled) then
        .ret (vars, .error (.error "恢复状态对账失败"))
      else (tryNow vars .rto).next fun vars time =>
        let rto := elapsed time boundary
        let vars := { vars with rtoMilliseconds := some rto }
        if exceeds rto 900000 then .ret (vars, .error (.error "隔离恢复 RTO 超过 15 分钟"))
        else (tryNow vars .reconciliationEnd).next fun vars finishedAt =>
          pushCompleted vars step startedAt finishedAt "all state identities reconciled"

/-- The whole `try`. -/
def attempt (platform : Platform) (options : RestoreOptions) (plan : StateRestorePlan)
    (vars : Vars) : Trying Unit :=
  (preflight platform options plan vars).next fun vars found =>
    (restore plan vars found.1 found.2).next fun vars root =>
      (startupGate platform plan vars found.1 root).next fun vars _ => reconcile plan vars found.2

/-! ## The rest -/

/--
The `catch`: the variables after it. `failed` gets the text of the summary, which is no `Error`, and
summarises it again.
-/
def recordFailure (vars : Vars) (error : Raised) : RestoreProg (Except Raised Vars) :=
  match vars.activeStep with
  | none => .ret (.ok vars)
  | some step => .call (.now .failure) fun
    | .error thrown => .ret (.error thrown)
    | .ok at_ =>
      match failed step at_ (.value (safeSummary error ≠ "")) with
      | .error thrown => .ret (.error thrown)
      | .ok record => .ret (.ok { vars with records := vars.records ++ [record] })

structure Cleanup where
  failure : Raised
  record : StateRestoreStepEvidence
  tempDirs : Nat

/-- `cleanupStep` as it is recorded. -/
def cleanupRecord (step : StateRestoreStep) (startedAt finishedAt : TimeValue) (failure : Raised) :
    Except Raised StateRestoreStepEvidence := do
  let finishedAt ← isoText finishedAt
  let startedAt ← isoText startedAt
  return { description := step.description, finishedAt, id := .cleanup
           resultSummary :=
             if failure.truthy then safeSummary failure else "temporary restore directory removed"
           startedAt, status := if failure.truthy then .failed else .succeeded }

/-- What is left of the directory, and the failure of its removal; nothing without a directory. -/
def removeRoot : Option String → RestoreProg (Raised × Nat)
  | none => .ret (.undefined, 0)
  | some root => .call (.rm root) fun removed =>
    let failure := match removed with
      | .ok () => .undefined
      | .error error => error
    .call (.lstatLeft root) fun
      | .ok _ => .ret (failure.orElse (.error "临时恢复目录未清理"), 1)
      | .error _ => .ret (failure, 0)

/-- `cleanupRestore(plan, restoreRoot, io, now)` -/
def cleanupRestore (plan : StateRestorePlan) (restoreRoot : Option String) :
    RestoreProg (Except Raised Cleanup) :=
  match findStep plan .cleanup with
  | .error error => .ret (.error error)
  | .ok step => .call (.now .cleanupStart) fun
    | .error error => .ret (.error error)
    | .ok startedAt => (removeRoot restoreRoot).bind fun (failure, tempDirs) =>
      .call (.now .cleanupEnd) fun
        | .error error => .ret (.error error)
        | .ok finishedAt =>
          match cleanupRecord step startedAt finishedAt failure with
          | .error error => .ret (.error error)
          | .ok record => .ret (.ok { failure, record, tempDirs })

/-- What the rehearsal ends with, once the cleanup is done. -/
def conclude (plan : StateRestorePlan) (vars : Vars) (failure : Raised) (cleanup : Cleanup) :
    Except RestoreFailure StateRestoreEvidence :=
  let failure := failure.orElse cleanup.failure
  let finalEvidence := evidence plan
    { candidateObserved := vars.candidateObserved, dryRun := false
      event := if failure.truthy then .failed else .completed
      tempDirs := cleanup.tempDirs, rtoMilliseconds := vars.rtoMilliseconds, states := vars.states
      steps := vars.records ++ [cleanup.record] }
  if failure.truthy then
    .error (.rehearsal ("隔离状态恢复演练失败: " ++ safeSummary failure) finalEvidence)
  else .ok finalEvidence

/-- The cleanup, and the end. -/
def finish (plan : StateRestorePlan) (vars : Vars) (failure : Raised) :
    RestoreProg (Except RestoreFailure StateRestoreEvidence) :=
  (cleanupRestore plan vars.restoreRoot).bind fun
    | .error error => .ret (.error (.thrown error))
    | .ok cleanup => .ret (conclude plan vars failure cleanup)

/-- The variables before the `try`. -/
def noVars : Vars where
  activeStep := none
  candidateObserved := none
  records := []
  restoreRoot := none
  rtoMilliseconds := none
  states := []

/-- `plannedEvidence(plan, at)` -/
def plannedEvidence (plan : StateRestorePlan) (at_ : TimeValue) : Except Raised StateRestoreEvidence := do
  let steps ← plan.steps.mapM fun step => do
    let text ← isoText at_
    return { description := step.description, finishedAt := text, id := step.id
             resultSummary := "dry-run: zero filesystem and external side effects", startedAt := text
             status := .planned }
  return evidence plan
    { candidateObserved := none, dryRun := true, event := .planned, tempDirs := 0
      rtoMilliseconds := none, states := [], steps }

/-- `executeStateRestoreRehearsal(plan, options)` -/
def executeStateRestoreRehearsal (platform : Platform) (plan : StateRestorePlan)
    (options : RestoreOptions) : RestoreProg (Except RestoreFailure StateRestoreEvidence) :=
  if options.dryRun then .call (.now .dryRun) fun
    | .error error => .ret (.error (.thrown error))
    | .ok at_ => .ret (match plannedEvidence plan at_ with
      | .ok evidence => .ok evidence
      | .error error => .error (.thrown error))
  else if options.confirm ≠ some plan.planHash then
    .ret (.error (.thrown (.error "实际状态恢复演练必须用 --confirm 提供同一份计划的 planHash")))
  else (attempt platform options plan noVars).bind fun
    | (vars, .ok ()) => finish plan vars .undefined
    | (vars, .error error) => (recordFailure vars error).bind fun
      | .error thrown => .ret (.error (.thrown thrown))
      | .ok vars => finish plan vars error

end InboxServer.StateRestore
