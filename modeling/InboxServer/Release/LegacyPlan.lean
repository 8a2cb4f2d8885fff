import InboxServer.Release.Plan

/-!
# Plans of a rollback rehearsal

`buildLegacyRehearsalPlan` of `packages/release-operations/src/legacy-rehearsal-plan.ts`, for a
manifest that has been read. How a manifest is read is left out, and so is its `schemaVersion`, which
is always 1; the digest that `planHash` comes from is a parameter.
-/

namespace InboxServer.Release

/-! ## The manifest -/

structure LegacyAssets where
  channelsPath : String
  composePath : String
  postgresSeedPath : String
  deriving DecidableEq

structure LegacyBackup where
  id : String
  sha256 : String
  deriving DecidableEq

structure LegacyCloudflare where
  apiPreviousVersion : String
  consolePreviousCommit : String
  deriving DecidableEq

structure LegacyD1 where
  legacyCutoff : String
  migrations : List String
  deriving DecidableEq

structure LegacyImages where
  mihomo : String
  warp : String
  worker : String
  deriving DecidableEq

structure LegacyRehearsalManifest where
  assets : LegacyAssets
  backup : LegacyBackup
  cloudflare : LegacyCloudflare
  d1 : LegacyD1
  images : LegacyImages
  rtoSeconds : Nat
  runId : String
  sourceCommit : String
  deriving DecidableEq

/-! ## The plan -/

inductive LegacyStepId where
  | d1Compatibility | identityEvidence | isolationPreflight | legacyComposeRestore | reconciliation
  | substituteWorkerStop
  deriving DecidableEq

/-- The id as the source writes it. -/
def LegacyStepId.text : LegacyStepId → String
  | .d1Compatibility => "d1-compatibility"
  | .identityEvidence => "identity-evidence"
  | .isolationPreflight => "isolation-preflight"
  | .legacyComposeRestore => "legacy-compose-restore"
  | .reconciliation => "reconciliation"
  | .substituteWorkerStop => "substitute-worker-stop"

structure LegacyRehearsalStep where
  commands : List ReleaseCommand
  description : String
  id : LegacyStepId
  deriving DecidableEq

structure LegacyRehearsalPlan where
  cleanupCommands : List ReleaseCommand
  manifest : LegacyRehearsalManifest
  planHash : String
  projectName : String
  steps : List LegacyRehearsalStep

/-- `step(id, description, commands)` -/
def legacyStep (id : LegacyStepId) (description : String) (commands : List ReleaseCommand) :
    LegacyRehearsalStep :=
  { commands, description, id }

def legacyProjectName (manifest : LegacyRehearsalManifest) : String :=
  "inbox-rollback-" ++ manifest.runId

/-- `compose(args)` -/
def compose (manifest : LegacyRehearsalManifest) (args : List String) : ReleaseCommand :=
  command "docker" (["compose", "--project-name", legacyProjectName manifest, "--file",
    manifest.assets.composePath] ++ args)

/-- The filter for what belongs to the project. -/
def projectFilter (manifest : LegacyRehearsalManifest) : List String :=
  ["--filter", "label=com.docker.compose.project=" ++ legacyProjectName manifest]

def legacySteps (manifest : LegacyRehearsalManifest) : List LegacyRehearsalStep :=
  [ legacyStep .isolationPreflight "校验隔离 Compose 并在 RTO 计时前构建旧运行时"
      [compose manifest ["config", "--quiet"], compose manifest ["build", "server", "worker"]],
    legacyStep .identityEvidence "读回合成备份、Cloudflare 版本和三容器 digest" [],
    legacyStep .d1Compatibility "在本地 SQLite 验证 D1 旧写新读与 migration 幂等" [],
    legacyStep .substituteWorkerStop "启动并停止替身新 Worker，从此步骤开始计算 RTO"
      [ compose manifest ["up", "-d", "substitute-worker"],
        compose manifest ["stop", "substitute-worker"] ],
    legacyStep .legacyComposeRestore "从合成备份启动旧 server/worker 路径并等待健康"
      [ compose manifest ["up", "-d", "--wait", "--wait-timeout", toString manifest.rtoSeconds,
          "postgres", "redis", "server", "worker"] ],
    legacyStep .reconciliation "核对 Compose 健康和合成备份标记"
      [ compose manifest ["ps", "--format", "json"],
        compose manifest ["exec", "-T", "postgres", "psql", "-U", "inbox", "-d", "inbox", "-Atc",
          "SELECT backup_id || '|' || record_count FROM rehearsal_backup_marker;"] ] ]

def legacyCleanupCommands (manifest : LegacyRehearsalManifest) : List ReleaseCommand :=
  [ compose manifest ["down", "--volumes", "--remove-orphans"],
    command "docker" (["ps", "-a"] ++ projectFilter manifest ++ ["--format", "\x7b\x7b.ID\x7d\x7d"]),
    command "docker" (["network", "ls"] ++ projectFilter manifest ++
      ["--format", "\x7b\x7b.ID\x7d\x7d"]),
    command "docker" (["volume", "ls"] ++ projectFilter manifest ++
      ["--format", "\x7b\x7b.Name\x7d\x7d"]) ]

/-- `buildLegacyRehearsalPlan(manifest)` -/
def buildLegacyRehearsalPlan
    (digest : List ReleaseCommand → LegacyRehearsalManifest → String → List LegacyRehearsalStep →
      String)
    (manifest : LegacyRehearsalManifest) : LegacyRehearsalPlan :=
  let cleanupCommands := legacyCleanupCommands manifest
  let projectName := legacyProjectName manifest
  let steps := legacySteps manifest
  { cleanupCommands, manifest, planHash := digest cleanupCommands manifest projectName steps,
    projectName, steps }

end InboxServer.Release
