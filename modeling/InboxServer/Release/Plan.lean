import Mathlib

/-!
# Release plans

`packages/release-operations/src/release-plan.ts`: the steps of a release, and of going back from
it, for a manifest that has been read. The digest that `planHash` comes from is a parameter.
-/

namespace InboxServer.Release

inductive ReleaseAction where
  | apply | rollback
  deriving DecidableEq

/-! ## The manifest -/

structure Backup where
  id : String
  verifiedAt : String
  deriving DecidableEq

structure CloudflareApi where
  name : String
  previousVersion : String
  targetVersion : String
  deriving DecidableEq

structure CloudflareConsole where
  artifactDir : String
  branch : String
  previousArtifactDir : String
  previousCommit : String
  projectName : String
  targetDeployment : String
  deriving DecidableEq

structure Database where
  migrations : List String
  name : String
  deriving DecidableEq

structure Cloudflare where
  api : CloudflareApi
  console : CloudflareConsole
  database : Database
  deriving DecidableEq

structure ExitGate where
  apiHealthUrl : String
  stabilitySeconds : Nat
  deriving DecidableEq

structure ImageVersions where
  previous : String
  target : String
  deriving DecidableEq

structure Images where
  mihomo : ImageVersions
  warp : ImageVersions
  worker : ImageVersions
  deriving DecidableEq

structure Sealos where
  context : String
  manifestPath : String
  namespaceName : String
  previousRevision : String
  revision : String
  rollbackManifestPath : String
  workloadName : String
  images : Images
  deriving DecidableEq

structure SecretRef where
  name : String
  versionRef : String
  deriving DecidableEq

structure ReleaseManifest where
  backup : Backup
  canaryFixtureSet : String
  cloudflare : Cloudflare
  exitGate : ExitGate
  sealos : Sealos
  secrets : List SecretRef
  sourceCommit : String
  deriving DecidableEq

/-! ## The plan -/

structure ReleaseCommand where
  args : List String
  file : String
  deriving DecidableEq

structure ReleaseStep where
  commands : List ReleaseCommand
  description : String
  id : String
  mutates : Bool
  rollbackCommands : List ReleaseCommand
  deriving DecidableEq

structure ReleasePlan where
  action : ReleaseAction
  manifest : ReleaseManifest
  planHash : String
  steps : List ReleaseStep
  deriving DecidableEq

/-- `step(id, description, mutates, commands, rollbackCommands)` -/
def step (id description : String) (mutates : Bool) (commands rollbackCommands : List ReleaseCommand) :
    ReleaseStep :=
  { commands, description, id, mutates, rollbackCommands }

/-- `command(file, args)` -/
def command (file : String) (args : List String) : ReleaseCommand := { args, file }

/-- `kubectlPrefix(manifest)` -/
def kubectlPrefix (manifest : ReleaseManifest) : List String :=
  ["--context", manifest.sealos.context, "--namespace", manifest.sealos.namespaceName]

/-- The command that looks at the migrations of the remote database. -/
def listMigrations (manifest : ReleaseManifest) : ReleaseCommand :=
  command "npm" ["exec", "--workspace", "@inbox/api", "--", "wrangler", "d1", "migrations", "list",
    manifest.cloudflare.database.name, "--remote"]

/-- The command that puts the previous version of the API back. -/
def deployPreviousApi (manifest : ReleaseManifest) : ReleaseCommand :=
  command "npm" ["exec", "--workspace", "@inbox/api", "--", "wrangler", "versions", "deploy",
    manifest.cloudflare.api.previousVersion ++ "@100%", "--name", manifest.cloudflare.api.name, "--yes"]

/-- The command that deploys an artifact of the console. -/
def deployConsole (manifest : ReleaseManifest) (artifactDir commit : String) : ReleaseCommand :=
  command "npm" ["exec", "--workspace", "@inbox/console", "--", "wrangler", "pages", "deploy",
    artifactDir, "--project-name", manifest.cloudflare.console.projectName, "--branch",
    manifest.cloudflare.console.branch, "--commit-hash", commit, "--commit-dirty=false"]

def applyManifest (manifest : ReleaseManifest) (path : String) : ReleaseCommand :=
  command "kubectl" (kubectlPrefix manifest ++ ["apply", "-f", path])

def rolloutStatus (manifest : ReleaseManifest) : ReleaseCommand :=
  command "kubectl" (kubectlPrefix manifest ++
    ["rollout", "status", "statefulset/" ++ manifest.sealos.workloadName])

/--
`String(value)` of a natural number. From `10 ^ 21` on it has an exponent, and the zeros at the end
of the number are left out.
-/
def numberText (n : Nat) : String :=
  if n < 10 ^ 21 then toString n
  else
    let digits := (toString n).toList
    let fraction := (digits.tail.reverse.dropWhile (· = '0')).reverse
    String.ofList (digits.take 1 ++ (if fraction = [] then [] else '.' :: fraction)) ++ "e+" ++
      toString (digits.length - 1)

def verifyLive (manifest : ReleaseManifest) : ReleaseCommand :=
  command "npm" ["run", "verify:live", "--workspace", "@inbox/api", "--", "--health-url",
    manifest.exitGate.apiHealthUrl, "--stability-seconds",
    numberText manifest.exitGate.stabilitySeconds]

def verifyCommit (manifest : ReleaseManifest) : ReleaseCommand :=
  command "git" ["cat-file", "-e", manifest.sourceCommit ++ "^\x7bcommit\x7d"]

def findContext (manifest : ReleaseManifest) : ReleaseCommand :=
  command "kubectl" ["config", "get-contexts", manifest.sealos.context, "-o", "name"]

/-- The step that brings the three containers of the worker up. -/
def workerStep (manifest : ReleaseManifest) : ReleaseStep :=
  step "worker" "应用 Sealos Worker 三容器不可变 manifest" true
    [applyManifest manifest manifest.sealos.manifestPath, rolloutStatus manifest]
    [applyManifest manifest manifest.sealos.rollbackManifestPath]

/-- `applySteps(manifest)` -/
def applySteps (manifest : ReleaseManifest) : List ReleaseStep :=
  let console := manifest.cloudflare.console
  [ step "preflight" "校验提交、版本、digest、Secret 引用、备份与目标 context" false
      [ verifyCommit manifest, command "npm" ["run", "typecheck"], command "npm" ["test"],
        listMigrations manifest, findContext manifest ] [],
    step "backup-evidence" ("确认备份证据 " ++ manifest.backup.id) false [] [],
    step "expand-migration" "应用 D1 expand migration" true
      [command "npm" ["run", "db:migrate:remote", "--workspace", "@inbox/api"]] [],
    step "api" "部署 Cloudflare Worker API" true
      [command "npm" ["run", "deploy", "--workspace", "@inbox/api"]]
      [deployPreviousApi manifest],
    step "console" "部署 Cloudflare Pages Console" true
      [ command "npm" ["run", "build", "--workspace", "@inbox/console"],
        deployConsole manifest console.artifactDir manifest.sourceCommit ]
      [deployConsole manifest console.previousArtifactDir console.previousCommit],
    workerStep manifest,
    step "isolated-canary" ("运行隔离 fixture " ++ manifest.canaryFixtureSet) false
      [command "npm" ["test", "--workspace", "@inbox/worker", "--", "--run", "tests/canary.test.ts"]]
      [],
    step "stability-window" "验证 API 健康、Worker rollout 与稳定窗口" false
      [verifyLive manifest, rolloutStatus manifest] [] ]

/-- `rollbackSteps(manifest)` -/
def rollbackSteps (manifest : ReleaseManifest) : List ReleaseStep :=
  let console := manifest.cloudflare.console
  [ step "preflight" "校验上一版本、回滚 manifest、备份与 D1 双版本兼容" false
      [verifyCommit manifest, findContext manifest, listMigrations manifest] [],
    step "api" "API 回退到上一 Cloudflare version" true [deployPreviousApi manifest] [],
    step "console" "Console 重新部署上一不可变产物" true
      [deployConsole manifest console.previousArtifactDir console.previousCommit] [],
    step "worker" "Worker 回退上一三容器 digest manifest" true
      [applyManifest manifest manifest.sealos.rollbackManifestPath, rolloutStatus manifest] [],
    step "stability-window" "验证回滚后的健康、积压与 D1 兼容" false [verifyLive manifest] [] ]

/-- `buildReleasePlan(action, manifest)` -/
def buildReleasePlan (digest : ReleaseAction → ReleaseManifest → List ReleaseStep → String)
    (action : ReleaseAction) (manifest : ReleaseManifest) : ReleasePlan :=
  let steps := match action with
    | .apply => applySteps manifest
    | .rollback => rollbackSteps manifest
  { action, manifest, planHash := digest action manifest steps, steps }

end InboxServer.Release
