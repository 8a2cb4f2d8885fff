import Mathlib

/-!
# Plans of a state-restore rehearsal

`buildStateRestorePlan` of `packages/release-operations/src/state-restore-plan.ts`, for a manifest
that has been read. The fields of a manifest that have one value only (`candidateRpoSeconds`,
`fileCount`, `rpoStatus`, `schemaVersion`) are left out, and the digest that `planHash` comes from is
a parameter.
-/

namespace InboxServer.StateRestore

inductive StateKind where
  | worker | browser | warp
  deriving DecidableEq

def StateKind.text : StateKind → String
  | .worker => "worker"
  | .browser => "browser"
  | .warp => "warp"

structure StateSnapshotManifest where
  path : String
  recordCount : Nat
  sha256 : String
  snapshotId : String
  stableId : String
  stateKind : StateKind
  deriving DecidableEq

structure StateRestoreManifest where
  capturedAt : String
  runId : String
  snapshots : List StateSnapshotManifest
  sourceCommit : String
  deriving DecidableEq

inductive StateStepId where
  | snapshotPreflight | restore | startupGate | reconciliation | cleanup
  deriving DecidableEq

/-- The id as the source writes it. -/
def StateStepId.text : StateStepId → String
  | .snapshotPreflight => "snapshot-preflight"
  | .restore => "restore"
  | .startupGate => "startup-gate"
  | .reconciliation => "reconciliation"
  | .cleanup => "cleanup"

structure StateRestoreStep where
  description : String
  id : StateStepId
  deriving DecidableEq

structure StateRestorePlan where
  manifest : StateRestoreManifest
  planHash : String
  restoreName : String
  steps : List StateRestoreStep
  deriving DecidableEq

def stateSteps : List StateRestoreStep :=
  [ { id := .snapshotPreflight, description := "在创建恢复目录前验证固定快照、摘要与候选 RPO" },
    { id := .restore, description := "把三类合成状态恢复到唯一临时目录并设置 0600 权限" },
    { id := .startupGate, description := "重新读取三类状态并执行不启动真实进程的合成启动门禁" },
    { id := .reconciliation, description := "对账摘要、schema、稳定标识、文件数和记录数" },
    { id := .cleanup, description := "无论成功或失败都清理临时恢复目录" } ]

/-- `buildStateRestorePlan(manifest)` -/
def buildStateRestorePlan
    (digest : StateRestoreManifest → String → List StateRestoreStep → String)
    (manifest : StateRestoreManifest) : StateRestorePlan :=
  let restoreName := "inbox-state-restore-" ++ manifest.runId
  { manifest, planHash := digest manifest restoreName stateSteps, restoreName, steps := stateSteps }

end InboxServer.StateRestore
