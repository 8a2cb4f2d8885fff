import InboxServer.Domain.IsoDate
import InboxServer.Domain.JobFailure
import InboxServer.Domain.JsonTree
import InboxServer.Release.Plan

/-!
# Reading a release manifest, and the hash of its plan

`parseReleaseManifest` and `canonicalJson` of `packages/release-operations/src/release-plan.ts`. A
field that is read may be missing, so the readers get an optional value.
-/

namespace InboxServer.ReleaseDocument

open Release

/-- What is taken from the platform. -/
structure Platform where
  /-- `Number.isFinite(Date.parse(text))` -/
  isDate : String → Bool
  /-- `new URL(text)`, where it does not throw: its `protocol` and its `toString()`. -/
  newUrl : String → Option (String × String)
  /-- `left.localeCompare(right)` -/
  localeCompare : String → String → Int
  /-- `createHash("sha256").update(text).digest("hex")` -/
  sha256 : String → String

/-! ## Patterns -/

/-- `[a-f0-9]` -/
def isLowerHex (c : Char) : Bool := c.isDigit || ('a' ≤ c && c ≤ 'f')

/-- `commitPattern` -/
def isCommit (text : String) : Bool := text.toList.length = 40 && text.toList.all isLowerHex

/-- `digestPattern`; the name of the image ends at the first `@`. -/
def isImageDigest (text : String) : Bool :=
  match text.toList.dropPrefix? "ghcr.nju.edu.cn/".toList with
  | none => false
  | some rest =>
    !(rest.takeWhile (· ≠ '@')).isEmpty &&
      match (rest.dropWhile (· ≠ '@')).dropPrefix? "@sha256:".toList with
      | some hex => hex.length = 64 && hex.all isLowerHex
      | none => false

/-- `[a-z0-9_-]` -/
def isMigrationChar (c : Char) : Bool := c.isLower || c.isDigit || c = '_' || c = '-'

/-- `/^apps\/api\/migrations\/\d{4}_[a-z0-9_-]+\.sql$/` -/
def isMigrationPath (text : String) : Bool :=
  match text.toList.dropPrefix? "apps/api/migrations/".toList with
  | some (a :: b :: c :: d :: '_' :: rest) => [a, b, c, d].all Char.isDigit &&
    match rest.dropSuffix? ".sql".toList with
    | some body => !body.isEmpty && body.all isMigrationChar
    | none => false
  | _ => false

/-- One of the keywords occurs in the text, in any letter case. -/
def mentionsAny (keywords : List String) (text : String) : Bool :=
  text.toList.tails.any fun rest => keywords.any fun keyword =>
    (stripKeyword keyword.toList rest).isSome

/-- A name of `rejectSensitiveMaterial`. -/
def isSensitiveName (name : String) : Bool :=
  name ≠ "secrets" && mentionsAny
    ["authorization", "cookie", "credential", "password", "secret", "token", "value"] name

/-- `value.trim() === ""` -/
def isBlank (text : String) : Bool := text.toList.all isSpaceChar

/-! ## Numbers -/

/-- The value of the digits of a number, with its exponent. -/
def readDigits (text : List Char) : Nat :=
  let whole := text.takeWhile Char.isDigit
  match text.dropWhile Char.isDigit with
  | 'e' :: '+' :: exponent => digitsValue whole * 10 ^ digitsValue exponent
  | '.' :: rest =>
    let fraction := rest.takeWhile Char.isDigit
    match rest.dropWhile Char.isDigit with
    | 'e' :: '+' :: exponent =>
      digitsValue (whole ++ fraction) * 10 ^ (digitsValue exponent - fraction.length)
    | _ => 0
  | _ => digitsValue whole

/-- The natural number that is written as the text. -/
def naturalOf (text : String) : Option Nat :=
  if numberText (readDigits text.toList) = text then some (readDigits text.toList) else none

/-! ## Readers -/

/-- `record(value, path)` -/
def record (value : Option Json) (path : String) : Except String Fields :=
  match value with
  | some (.obj fields) => .ok fields
  | _ => .error (path ++ " 必须是对象")

/-- `exactKeys(value, allowed, path)` -/
def exactKeys (value : Fields) (allowed : List String) (path : String) : Except String Unit :=
  let unexpected := (value.map Prod.fst).filter fun key => key ∉ allowed
  if unexpected = [] then .ok ()
  else .error (path ++ " 包含未允许字段: " ++ ",".intercalate unexpected)

/-- `text(value, path)` -/
def text (value : Option Json) (path : String) : Except String String :=
  match value with
  | some (.str s) => if isBlank s then .error (path ++ " 必须是非空字符串") else .ok s
  | _ => .error (path ++ " 必须是非空字符串")

/-- A text that has to meet a test. -/
def tested (test : String → Bool) (message : String) (value : Option Json) (path : String) :
    Except String String := do
  let parsed ← text value path
  if test parsed then .ok parsed else .error message

/-- `commit(value, path)` -/
def commit (value : Option Json) (path : String) : Except String String :=
  tested isCommit (path ++ " 必须是 40 位提交 SHA") value path

/-- `timestamp(value, path)` -/
def timestamp (platform : Platform) (value : Option Json) (path : String) : Except String String :=
  tested platform.isDate (path ++ " 必须是 RFC 3339 时间") value path

/-- A path that does not begin with a slash and has no `..` in it. -/
def isInside (path : String) : Bool :=
  !path.toList.head? = some '/' && !(path.toList.splitOn '/').contains ['.', '.']

/-- `safePath(value, path)` -/
def safePath (value : Option Json) (path : String) : Except String String :=
  tested isInside (path ++ " 必须是仓库内相对路径") value path

/-- `kubeContext(value)` -/
def kubeContext (value : Option Json) : Except String String :=
  tested (fun context => !mentionsAny ["orbstack", "docker-desktop", "minikube"] context)
    "sealos.context 禁止指向本机 Kubernetes context" value "sealos.context"

/-- `httpsUrl(value, path)` -/
def httpsUrl (platform : Platform) (value : Option Json) (path : String) : Except String String := do
  let parsed ← text value path
  match platform.newUrl parsed with
  | none => .error "Invalid URL"
  | some (protocol, href) => if protocol = "https:" then .ok href else .error (path ++ " 必须使用 HTTPS")

/-- `positiveInteger(value, path)` -/
def positiveInteger (value : Option Json) (path : String) : Except String Nat :=
  match value with
  | some (.num number) =>
    match naturalOf number with
    | some (n + 1) => .ok (n + 1)
    | _ => .error (path ++ " 必须是正整数")
  | _ => .error (path ++ " 必须是正整数")

/-- `imageVersions(value, path)` -/
def imageVersions (value : Option Json) (path : String) : Except String ImageVersions := do
  let parsed ← record value path
  exactKeys parsed ["previous", "target"] path
  let previous ← text (parsed.lookup "previous") (path ++ ".previous")
  let target ← text (parsed.lookup "target") (path ++ ".target")
  if isImageDigest previous && isImageDigest target then .ok { previous, target }
  else .error (path ++ " 必须使用南京大学 GHCR 代理的 sha256 digest")

mutual

/-- `rejectSensitiveMaterial(value, path)` -/
def rejectSensitiveMaterial : Json → String → Except String Unit
  | .arr items, path => rejectSensitiveItems items 0 path
  | .obj fields, path => rejectSensitiveFields fields path
  | _, _ => .ok ()

def rejectSensitiveItems : List Json → Nat → String → Except String Unit
  | [], _, _ => .ok ()
  | item :: items, i, path => do
    rejectSensitiveMaterial item (path ++ "[" ++ toString i ++ "]")
    rejectSensitiveItems items (i + 1) path

def rejectSensitiveFields : Fields → String → Except String Unit
  | [], _ => .ok ()
  | (key, child) :: fields, path =>
    if isSensitiveName key then
      .error (path ++ "." ++ key ++ " 禁止保存敏感原值，只允许 Secret 版本引用")
    else do
      rejectSensitiveMaterial child (path ++ "." ++ key)
      rejectSensitiveFields fields path

end

/-- `migrationList(value)` -/
def migrationList (value : Option Json) : Except String (List String) :=
  match value with
  | some (.arr (item :: items)) => do
    let parsed ← (item :: items).zipIdx.mapM fun item =>
      safePath (some item.1) ("database.migrations[" ++ toString item.2 ++ "]")
    if !parsed.all isMigrationPath then
      .error "database.migrations 只能引用 apps/api/migrations 下的编号 SQL"
    else if ¬parsed.Nodup then .error "database.migrations 不得重复"
    else .ok parsed
  | _ => .error "database.migrations 不能为空"

/-- One of the items of `secretRefs`. -/
def secretRef (item : Json) (path : String) : Except String SecretRef := do
  let parsed ← record (some item) path
  exactKeys parsed ["name", "versionRef"] path
  let name ← text (parsed.lookup "name") (path ++ ".name")
  let versionRef ← text (parsed.lookup "versionRef") (path ++ ".versionRef")
  return { name, versionRef }

/-- `secretRefs(value)` -/
def secretRefs (value : Option Json) : Except String (List SecretRef) :=
  match value with
  | some (.arr (item :: items)) => (item :: items).zipIdx.mapM fun item =>
    secretRef item.1 ("secrets[" ++ toString item.2 ++ "]")
  | _ => .error "secrets 不能为空"

/-! ## `parseReleaseManifest` -/

/-- The field `backup` of what is returned. -/
def readBackup (platform : Platform) (backup : Fields) : Except String Backup := do
  let id ← text (backup.lookup "id") "backup.id"
  let verifiedAt ← timestamp platform (backup.lookup "verifiedAt") "backup.verifiedAt"
  return { id, verifiedAt }

/-- The field `cloudflare.api` of what is returned. -/
def readApi (api : Fields) : Except String CloudflareApi := do
  let name ← text (api.lookup "name") "cloudflare.api.name"
  let previousVersion ← text (api.lookup "previousVersion") "cloudflare.api.previousVersion"
  let targetVersion ← text (api.lookup "targetVersion") "cloudflare.api.targetVersion"
  return { name, previousVersion, targetVersion }

/-- The field `cloudflare.console` of what is returned. -/
def readConsole (console : Fields) : Except String CloudflareConsole := do
  let artifactDir ← safePath (console.lookup "artifactDir") "cloudflare.console.artifactDir"
  let branch ← text (console.lookup "branch") "cloudflare.console.branch"
  let previousArtifactDir ←
    safePath (console.lookup "previousArtifactDir") "cloudflare.console.previousArtifactDir"
  let previousCommit ← commit (console.lookup "previousCommit") "cloudflare.console.previousCommit"
  let projectName ← text (console.lookup "projectName") "cloudflare.console.projectName"
  let targetDeployment ←
    text (console.lookup "targetDeployment") "cloudflare.console.targetDeployment"
  return { artifactDir, branch, previousArtifactDir, previousCommit, projectName, targetDeployment }

/-- The field `cloudflare.database` of what is returned. -/
def readDatabase (database : Fields) : Except String Database := do
  let migrations ← migrationList (database.lookup "migrations")
  let name ← text (database.lookup "name") "cloudflare.database.name"
  return { migrations, name }

/-- The field `exitGate` of what is returned. -/
def readExitGate (platform : Platform) (exitGate : Fields) : Except String ExitGate := do
  let apiHealthUrl ← httpsUrl platform (exitGate.lookup "apiHealthUrl") "exitGate.apiHealthUrl"
  let stabilitySeconds ←
    positiveInteger (exitGate.lookup "stabilitySeconds") "exitGate.stabilitySeconds"
  return { apiHealthUrl, stabilitySeconds }

/-- The field `sealos.images` of what is returned. -/
def readImages (images : Fields) : Except String Images := do
  let mihomo ← imageVersions (images.lookup "mihomo") "sealos.images.mihomo"
  let warp ← imageVersions (images.lookup "warp") "sealos.images.warp"
  let worker ← imageVersions (images.lookup "worker") "sealos.images.worker"
  return { mihomo, warp, worker }

/-- The field `sealos` of what is returned. -/
def readSealos (sealos images : Fields) : Except String Sealos := do
  let context ← kubeContext (sealos.lookup "context")
  let images ← readImages images
  let manifestPath ← safePath (sealos.lookup "manifestPath") "sealos.manifestPath"
  let namespaceName ← text (sealos.lookup "namespace") "sealos.namespace"
  let previousRevision ← text (sealos.lookup "previousRevision") "sealos.previousRevision"
  let revision ← text (sealos.lookup "revision") "sealos.revision"
  let rollbackManifestPath ←
    safePath (sealos.lookup "rollbackManifestPath") "sealos.rollbackManifestPath"
  let workloadName ← text (sealos.lookup "workloadName") "sealos.workloadName"
  return { context, manifestPath, namespaceName, previousRevision, revision, rollbackManifestPath,
           workloadName, images }

/-- `parseReleaseManifest(value)` -/
def parseReleaseManifest (platform : Platform) (value : Json) : Except String ReleaseManifest := do
  let root ← record (some value) "manifest"
  exactKeys root ["backup", "canary", "cloudflare", "exitGate", "schemaVersion", "sealos", "secrets",
    "sourceCommit"] "manifest"
  rejectSensitiveMaterial (.obj root) "manifest"
  if root.lookup "schemaVersion" ≠ some (.num "1") then .error "manifest.schemaVersion 必须为 1"
  else do
    let cloudflare ← record (root.lookup "cloudflare") "manifest.cloudflare"
    let api ← record (cloudflare.lookup "api") "manifest.cloudflare.api"
    let console ← record (cloudflare.lookup "console") "manifest.cloudflare.console"
    let database ← record (cloudflare.lookup "database") "manifest.cloudflare.database"
    let sealos ← record (root.lookup "sealos") "manifest.sealos"
    let images ← record (sealos.lookup "images") "manifest.sealos.images"
    let backup ← record (root.lookup "backup") "manifest.backup"
    let canary ← record (root.lookup "canary") "manifest.canary"
    let exitGate ← record (root.lookup "exitGate") "manifest.exitGate"
    exactKeys cloudflare ["api", "console", "database"] "manifest.cloudflare"
    exactKeys api ["name", "previousVersion", "targetVersion"] "manifest.cloudflare.api"
    exactKeys console ["artifactDir", "branch", "previousArtifactDir", "previousCommit",
      "projectName", "targetDeployment"] "manifest.cloudflare.console"
    exactKeys database ["migrations", "name"] "manifest.cloudflare.database"
    exactKeys backup ["id", "verifiedAt"] "manifest.backup"
    exactKeys canary ["fixtureSet"] "manifest.canary"
    exactKeys exitGate ["apiHealthUrl", "stabilitySeconds"] "manifest.exitGate"
    exactKeys sealos ["context", "images", "manifestPath", "namespace", "previousRevision",
      "revision", "rollbackManifestPath", "workloadName"] "manifest.sealos"
    exactKeys images ["mihomo", "warp", "worker"] "manifest.sealos.images"
    let backup ← readBackup platform backup
    let canaryFixtureSet ← text (canary.lookup "fixtureSet") "canary.fixtureSet"
    let api ← readApi api
    let console ← readConsole console
    let database ← readDatabase database
    let exitGate ← readExitGate platform exitGate
    let sealos ← readSealos sealos images
    let secrets ← secretRefs (root.lookup "secrets")
    let sourceCommit ← commit (root.lookup "sourceCommit") "sourceCommit"
    return { backup, canaryFixtureSet, cloudflare := { api, console, database }, exitGate, sealos,
             secrets, sourceCommit }

/-! ## Documents -/

def backupJson (backup : Backup) : Json :=
  .obj [("id", .str backup.id), ("verifiedAt", .str backup.verifiedAt)]

def apiJson (api : CloudflareApi) : Json :=
  .obj [("name", .str api.name), ("previousVersion", .str api.previousVersion),
    ("targetVersion", .str api.targetVersion)]

def consoleJson (console : CloudflareConsole) : Json :=
  .obj [("artifactDir", .str console.artifactDir), ("branch", .str console.branch),
    ("previousArtifactDir", .str console.previousArtifactDir),
    ("previousCommit", .str console.previousCommit), ("projectName", .str console.projectName),
    ("targetDeployment", .str console.targetDeployment)]

def databaseJson (database : Database) : Json :=
  .obj [("migrations", .arr (database.migrations.map .str)), ("name", .str database.name)]

def exitGateJson (exitGate : ExitGate) : Json :=
  .obj [("apiHealthUrl", .str exitGate.apiHealthUrl),
    ("stabilitySeconds", .num (numberText exitGate.stabilitySeconds))]

def imageJson (image : ImageVersions) : Json :=
  .obj [("previous", .str image.previous), ("target", .str image.target)]

def imagesJson (images : Images) : Json :=
  .obj [("mihomo", imageJson images.mihomo), ("warp", imageJson images.warp),
    ("worker", imageJson images.worker)]

def sealosJson (sealos : Sealos) : Json :=
  .obj [("context", .str sealos.context), ("images", imagesJson sealos.images),
    ("manifestPath", .str sealos.manifestPath), ("namespace", .str sealos.namespaceName),
    ("previousRevision", .str sealos.previousRevision), ("revision", .str sealos.revision),
    ("rollbackManifestPath", .str sealos.rollbackManifestPath),
    ("workloadName", .str sealos.workloadName)]

def secretJson (secret : SecretRef) : Json :=
  .obj [("name", .str secret.name), ("versionRef", .str secret.versionRef)]

def cloudflareJson (cloudflare : Cloudflare) : Json :=
  .obj [("api", apiJson cloudflare.api), ("console", consoleJson cloudflare.console),
    ("database", databaseJson cloudflare.database)]

/-- A manifest as the object that `parseReleaseManifest` returns. -/
def manifestJson (manifest : ReleaseManifest) : Json :=
  .obj [("backup", backupJson manifest.backup),
    ("canary", .obj [("fixtureSet", .str manifest.canaryFixtureSet)]),
    ("cloudflare", cloudflareJson manifest.cloudflare), ("exitGate", exitGateJson manifest.exitGate),
    ("schemaVersion", .num "1"), ("sealos", sealosJson manifest.sealos),
    ("secrets", .arr (manifest.secrets.map secretJson)), ("sourceCommit", .str manifest.sourceCommit)]

def commandJson (command : ReleaseCommand) : Json :=
  .obj [("args", .arr (command.args.map .str)), ("file", .str command.file)]

def stepJson (step : ReleaseStep) : Json :=
  .obj [("commands", .arr (step.commands.map commandJson)), ("description", .str step.description),
    ("id", .str step.id), ("mutates", .bool step.mutates),
    ("rollbackCommands", .arr (step.rollbackCommands.map commandJson))]

def actionText : ReleaseAction → String
  | .apply => "apply"
  | .rollback => "rollback"

/-! ## The hash -/

/-- `canonicalJson(value)` -/
def canonicalJson (platform : Platform) (value : Json) : String :=
  (Json.sortValue platform.localeCompare value).stringify

/-- `{ action, manifest, steps }` -/
def planJson (action : ReleaseAction) (manifest : ReleaseManifest) (steps : List ReleaseStep) : Json :=
  .obj [("action", .str (actionText action)), ("manifest", manifestJson manifest),
    ("steps", .arr (steps.map stepJson))]

/-- What `planHash` is computed by. -/
def planDigest (platform : Platform) (action : ReleaseAction) (manifest : ReleaseManifest)
    (steps : List ReleaseStep) : String :=
  platform.sha256 (canonicalJson platform (planJson action manifest steps))

/-- `buildReleasePlan(action, manifest)` with this digest. -/
def releasePlan (platform : Platform) (action : ReleaseAction) (manifest : ReleaseManifest) :
    ReleasePlan :=
  buildReleasePlan (planDigest platform) action manifest

end InboxServer.ReleaseDocument
