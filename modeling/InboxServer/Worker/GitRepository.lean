import InboxServer.Worker.ArticleRepository

/-!
# Saving into the repository of articles

`GitArticleRepository.save` of `apps/worker/src/article-archive.ts`, as a program whose calls are the
commands of git and the operations on files. The waits between attempts are left out, and so is what
only names the command line: the token, the proxies, the time limits.
-/

namespace InboxServer.Git

open Infra

/-! ## Calls -/

/-- What `exists` is asked about. -/
inductive RepoPath where
  /-- `<repositoryDir>/.git` -/
  | gitDir
  | repository
  | articles
  /-- A file in the directory of the articles. -/
  | article (entry : String)
  deriving DecidableEq

/-- The commands of git; a path is given by the file's name in the directory of the articles. -/
inductive GitCommand where
  | clone
  /-- `rev-parse --verify HEAD` -/
  | verifyHead
  /-- `rev-parse HEAD` -/
  | revParseHead
  /-- `ls-remote --heads origin <branch>` -/
  | lsRemote
  /-- `pull --rebase origin <branch>` -/
  | pullRebase
  /-- `rebase --abort` -/
  | rebaseAbort
  /-- `status --porcelain --untracked-files=all -- <path>` -/
  | status (entry : String)
  | add (entry : String)
  /-- `commit --only -m … -- <path>` -/
  | commit (entry : String)
  /-- `push origin HEAD:<branch>` -/
  | push
  deriving DecidableEq

/-- `args[0]` -/
def GitCommand.name : GitCommand → String
  | .clone => "clone"
  | .verifyHead | .revParseHead => "rev-parse"
  | .lsRemote => "ls-remote"
  | .pullRebase => "pull"
  | .rebaseAbort => "rebase"
  | .status _ => "status"
  | .add _ => "add"
  | .commit _ => "commit"
  | .push => "push"

inductive RepoCall where
  /-- `exists(path)` -/
  | pathExists (path : RepoPath)
  | git (command : GitCommand)
  /-- `rename(repositoryDir, <repositoryDir>.incomplete-<now>)` -/
  | setAside
  /-- `mkdir(dirname(repositoryDir), { recursive: true })` -/
  | mkdirParent
  | mkdirArticles
  | readdir
  | readFile (entry : String)
  /-- `open(temporary, "wx", 0o600)` -/
  | openTemporary
  | writeTemporary (content : String)
  | syncTemporary
  | closeTemporary
  /-- `rename(temporary, target)` -/
  | renameTemporary (entry : String)
  deriving DecidableEq

@[reducible] def RepoCall.Answer : RepoCall → Type
  | .pathExists _ => Bool
  | .git _ => Except Unit String
  | .readdir => Except ArchiveError (List String)
  | .readFile _ => Except ArchiveError String
  | .setAside | .mkdirParent | .mkdirArticles | .openTemporary | .writeTemporary _ | .syncTemporary
  | .closeTemporary | .renameTemporary _ => Except ArchiveError Unit

abbrev RepoProg (α : Type) := Prog RepoCall RepoCall.Answer (Except ArchiveError α)

/-! ## Commands -/

/-- `gitCommandAttempts(command)` -/
def gitCommandAttempts (command : String) : Nat :=
  if command = "ls-remote" || command = "pull" || command = "push" then 3 else 1

/-- The error of a command that fails; a name has no two characters next to each other to replace. -/
def gitFailed (command : GitCommand) : ArchiveError :=
  .error ("git_" ++ String.ofList (command.name.toList.map fun c => if c.isAlphanum then c else '_') ++
    "_failed")

/-- `#runGit(args, timeout, attempts, command)` -/
def runGit (command : GitCommand) : Nat → RepoProg String
  | 0 => .ret (.error (.error "git_command_failed"))
  | attempts + 1 => .call (.git command) fun
    | .ok stdout => .ret (.ok stdout)
    | .error _ => if attempts = 0 then .ret (.error (gitFailed command)) else runGit command attempts

/-- `#git(...args)` -/
def git (command : GitCommand) : RepoProg String :=
  runGit command (gitCommandAttempts command.name)

/-- `#remoteBranchMatchesHead()` -/
def remoteBranchMatchesHead : RepoProg Bool :=
  (git .revParseHead).andThen fun localHead =>
    (git .lsRemote).andThen fun remoteBranch =>
      .ret (.ok ((trimText remoteBranch).toList.takeWhile (fun c => !isSpaceChar c) =
        (trimText localHead).toList))

/-- The loop of `#pullRebaseSafely()`, with the attempts that are left. -/
def pullAttempts : Nat → RepoProg Unit
  | 0 => .ret (.ok ())
  | attempts + 1 => (runGit .pullRebase 1).bind fun
    | .ok _ => .ret (.ok ())
    | .error error => (runGit .rebaseAbort 1).bind fun _ =>
      if attempts = 0 then .ret (.error error) else pullAttempts attempts

def pullRebaseSafely : RepoProg Unit := pullAttempts (gitCommandAttempts "pull")

/-- The loop of `#pushWithRebaseRetry()`, with the attempts that are left. -/
def pushAttempts : Nat → RepoProg Unit
  | 0 => .ret (.ok ())
  | attempts + 1 => (runGit .push 1).bind fun
    | .ok _ => .ret (.ok ())
    | .error error =>
      if attempts = 0 then .ret (.error error)
      else pullRebaseSafely.andThen fun _ => pushAttempts attempts

def pushWithRebaseRetry : RepoProg Unit := pushAttempts (gitCommandAttempts "push")

/-- What `#commitAndPush(target)` does where the status is not blank. -/
def commitFile (entry : String) : RepoProg Unit :=
  (git (.add entry)).andThen fun _ => (git (.commit entry)).andThen fun _ => .ret (.ok ())

/-- `#commitAndPush(target)` -/
def commitAndPush (entry : String) : RepoProg Unit :=
  (git (.status entry)).andThen fun status =>
    (if trimText status = "" then .ret (.ok ()) else commitFile entry).andThen fun _ =>
      pushWithRebaseRetry

/-! ## The repository -/

/-- From the `mkdir` of `#ensureRepository()` on. -/
def cloneRepository : RepoProg Bool :=
  .call .mkdirParent fun
    | .error error => .ret (.error error)
    | .ok _ => (runGit .clone 1).andThen fun _ => .ret (.ok true)

def setAsideAndClone : RepoProg Bool :=
  .call .setAside fun
    | .error error => .ret (.error error)
    | .ok _ => cloneRepository

/-- `#ensureRepository()` -/
def ensureRepository : RepoProg Bool :=
  .call (.pathExists .gitDir) fun hasGit =>
    if hasGit then
      (git .verifyHead).bind fun
        | .ok _ => .ret (.ok false)
        | .error _ => setAsideAndClone
    else
      .call (.pathExists .repository) fun hasRepository =>
        if hasRepository then setAsideAndClone else cloneRepository

/-- The loop of `#findSourceUrl(sourceUrl)`. -/
def findEntry (sourceUrl : String) : List String → RepoProg (Option String)
  | [] => .ret (.ok none)
  | entry :: entries =>
    if !isMarkdownName entry then findEntry sourceUrl entries
    else .call (.readFile entry) fun
      | .error error => .ret (.error error)
      | .ok content =>
        if fileSourceUrl content = some (utf16Units sourceUrl) then .ret (.ok (some entry))
        else findEntry sourceUrl entries

/-- `#findSourceUrl(sourceUrl)` -/
def findSourceUrl (sourceUrl : String) : RepoProg (Option String) :=
  .call (.pathExists .articles) fun hasArticles =>
    if !hasArticles then .ret (.ok none)
    else .call .readdir fun
      | .error error => .ret (.error error)
      | .ok entries => findEntry sourceUrl entries

/-- `${filename.slice(0, -3)}-${fingerprint}.md` -/
def suffixedName (env : ArchiveEnv) (filename sourceUrl : String) : String :=
  String.ofList (filename.toList.take (filename.length - 3)) ++ "-" ++
    String.ofList ((env.sha256Hex sourceUrl).toList.take 8) ++ ".md"

theorem collisionSafeFilename_eq (env : ArchiveEnv) (directory : ArticlesDir)
    (filename sourceUrl : String) :
    collisionSafeFilename env directory filename sourceUrl =
      if directory.files.any (·.entry = filename) then suffixedName env filename sourceUrl
      else filename := rfl

/-- The `try` and the `finally` of `save`: the content is in the temporary file, which is closed. -/
def writeTemporary (content : String) : RepoProg Unit :=
  .call .openTemporary fun
    | .error error => .ret (.error error)
    | .ok _ => .call (.writeTemporary content) fun written =>
      (match written with
        | .error error => .ret (.error error)
        | .ok _ => .call .syncTemporary .ret : RepoProg Unit).bind fun result =>
          .call .closeTemporary fun
            | .error error => .ret (.error error)
            | .ok _ => .ret result

/-- From the `open` of the temporary file on. -/
def createFile (input : ArticleFile) (filename : String) : RepoProg SavedArticle :=
  (writeTemporary input.content).andThen fun _ =>
    .call (.renameTemporary filename) fun
      | .error error => .ret (.error error)
      | .ok _ => (commitAndPush filename).andThen fun _ =>
        .ret (.ok { created := true, filename })

/-- `save`, of an article that has no file yet. -/
def saveNew (env : ArchiveEnv) (input : ArticleFile) : RepoProg SavedArticle :=
  .call .mkdirArticles fun
    | .error error => .ret (.error error)
    | .ok _ => .call (.pathExists (.article input.filename)) fun taken =>
      createFile input
        (if taken then suffixedName env input.filename input.sourceUrl else input.filename)

/-- `save(input)` -/
def save (env : ArchiveEnv) (input : ArticleFile) : RepoProg SavedArticle :=
  ensureRepository.andThen fun initialized =>
    (if initialized then .ret (.ok ())
      else remoteBranchMatchesHead.andThen fun same =>
        if same then .ret (.ok ()) else pullRebaseSafely).andThen fun _ =>
      (findSourceUrl input.sourceUrl).andThen fun
        | some filename => (commitAndPush filename).andThen fun _ =>
          .ret (.ok { created := false, filename })
        | none => saveNew env input

end InboxServer.Git
