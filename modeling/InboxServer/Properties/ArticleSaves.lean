import InboxServer.Infra.Attempts
import InboxServer.Properties.FrontMatter
import InboxServer.Worker.GitRepository

/-!
# Articles are saved once

Calls of `GitArticleRepository.save`, one after the other. Each may be cut off at any call, and a command
may fail before it takes effect or after. The branch is pushed to by these calls alone.

* `saves_safe` — no file of another source is overwritten, there is one file for a source, and a save that
  returns has left its file in the remote branch
-/

namespace InboxServer.Git

open Infra

/-! ## What there is -/

/-- A file of an article, with the URL that it has been saved for. -/
structure SavedFile where
  entry : String
  content : String
  sourceUrl : String
  deriving DecidableEq

/-- The commits of a branch, each by the file that it writes. -/
abbrev History := List SavedFile

def put (files : List SavedFile) (file : SavedFile) : List SavedFile :=
  files.filter (·.entry ≠ file.entry) ++ [file]

/-- The files in the tree of the last commit. -/
def treeOf (history : History) : List SavedFile := history.foldl put []

/-- What `.git` has for `HEAD`. -/
inductive Head where
  /-- There is no `.git`. -/
  | missing
  | unresolved
  /-- `HEAD` resolves; the checkout after the clone has come to its end, or it has not. -/
  | at (history : History) (whole : Bool)
  deriving DecidableEq

/-- The directory of the repository, with the Markdown files among the articles. -/
structure Checkout where
  head : Head
  files : List SavedFile
  deriving DecidableEq

structure World where
  directory : Option Checkout
  remote : History
  /-- What is in the temporary file. -/
  temporary : String
  /-- The files that another one, of another source, has been put in the place of. -/
  overwritten : List SavedFile
  deriving DecidableEq

def World.files (w : World) : List SavedFile := (w.directory.map Checkout.files).getD []

/-- `HEAD` resolves to the last commit of the history, and all of its files are checked out. -/
def World.At (w : World) (history : History) : Prop :=
  ∃ checkout, w.directory = some checkout ∧ checkout.head = .at history true

/-- `HEAD` resolves to the last commit of the history. -/
def World.Resolves (w : World) (history : History) : Prop :=
  ∃ checkout whole, w.directory = some checkout ∧ checkout.head = .at history whole

/-- The file in the working tree is as the tree of `HEAD` has it. -/
def World.Committed (w : World) (entry : String) : Prop :=
  ∃ history, w.Resolves history ∧ ∀ file ∈ w.files, file.entry = entry →
    ∃ committed ∈ treeOf history, committed.entry = entry ∧ committed.content = file.content

/-- What `exists` says; the directory of the articles may be there without files. -/
def World.Has (w : World) : RepoPath → Bool → Prop
  | .gitDir, reply => reply = (w.directory.any fun checkout => checkout.head matches .unresolved | .at ..)
  | .repository, reply => reply = w.directory.isSome
  | .articles, reply => reply = false → w.files = []
  | .article entry, reply => reply = w.files.any (·.entry = entry)

/-- What a clone that does not come to its end has left behind. -/
inductive ClonedPart (remote : History) : Checkout → Prop
  | missing : ClonedPart remote ⟨.missing, []⟩
  | unresolved : ClonedPart remote ⟨.unresolved, []⟩
  | checkout (files : List SavedFile) (h : files.Sublist (treeOf remote)) :
    ClonedPart remote ⟨.at remote false, files⟩

/--
How a command of git may end, and what it leaves behind. A command that fails may have taken effect; one
that succeeds has.
-/
def learnsGit (w : World) : GitCommand → Except Unit String → World → Prop
  | .clone, reply, w' =>
    (reply = .error () ∧ (w' = w ∨ w.directory = none ∧ ∃ checkout, ClonedPart w.remote checkout ∧
      w' = { w with directory := some checkout })) ∨
    w.directory = none ∧ w' = { w with directory := some ⟨.at w.remote true, treeOf w.remote⟩ }
  | .verifyHead, reply, w' => w' = w ∧ ∀ stdout, reply = .ok stdout → ∃ history, w.Resolves history
  | .revParseHead, _, w' | .lsRemote, _, w' | .add _, _, w' => w' = w
  -- there is nothing to rebase where `HEAD` has all commits of the remote branch
  | .pullRebase, _, w' | .rebaseAbort, _, w' =>
    (∃ history, w.Resolves history ∧ w.remote <+: history) → w' = w
  | .status entry, reply, w' =>
    w' = w ∧ ∀ stdout, reply = .ok stdout → (trimText stdout = "" ↔ w.Committed entry)
  | .commit entry, reply, w' => (reply = .error () ∧ w' = w) ∨
    ∃ checkout history whole file, w.directory = some checkout ∧ checkout.head = .at history whole ∧
      file ∈ checkout.files ∧ file.entry = entry ∧
      w' = { w with directory := some { checkout with head := .at (history ++ [file]) whole } }
  | .push, reply, w' => (reply = .error () ∧ w' = w) ∨
    ∃ history, w.Resolves history ∧ w.remote <+: history ∧ w' = { w with remote := history }

/-- The temporary file takes the place of a file. -/
def World.rename (w : World) (checkout : Checkout) (entry sourceUrl : String) : World :=
  { w with
    directory := some { checkout with
      files := put checkout.files { entry, content := w.temporary, sourceUrl } }
    overwritten := w.overwritten ++
      checkout.files.filter fun file => file.entry = entry && file.sourceUrl ≠ sourceUrl }

/-- How a call of a save for a source may be answered, and what it leaves behind. -/
def learns (sourceUrl : String) (w : World) : (c : RepoCall) → c.Answer → World → Prop
  | .pathExists path, reply, w' => w' = w ∧ w.Has path reply
  | .git command, reply, w' => learnsGit w command reply w'
  | .setAside, reply, w' => ((∃ e, reply = .error e) ∧ w' = w) ∨ w' = { w with directory := none }
  | .mkdirParent, _, w' | .mkdirArticles, _, w' => w' = w
  | .readdir, reply, w' => w' = w ∧ ∀ entries, reply = .ok entries →
      (entries.filter isMarkdownName).Perm ((w.files.map SavedFile.entry).filter isMarkdownName)
  | .readFile entry, reply, w' => w' = w ∧ ∀ content, reply = .ok content →
      ∃ file ∈ w.files, file.entry = entry ∧ file.content = content
  | .openTemporary, _, w' => ∃ content, w' = { w with temporary := content }
  | .writeTemporary content, reply, w' =>
    ∃ written, w' = { w with temporary := written } ∧ (reply = .ok () → written = content)
  | .syncTemporary, _, w' | .closeTemporary, _, w' => w' = w
  | .renameTemporary entry, reply, w' => ((∃ e, reply = .error e) ∧ w' = w) ∨
    ∃ checkout, w.directory = some checkout ∧ w' = w.rename checkout entry sourceUrl

/-! ## What is kept -/

/-- Files that the lookup tells apart: by their names, and by their sources. -/
structure Good (files : List SavedFile) : Prop where
  entries : (files.map SavedFile.entry).Nodup
  sources : (files.map SavedFile.sourceUrl).Nodup
  found : ∀ file ∈ files, isMarkdownName file.entry = true ∧
    fileSourceUrl file.content = some (utf16Units file.sourceUrl)

/-- What there is to a `HEAD`, beside the files and the remote branch. -/
def Head.Sound (remote : History) (files : List SavedFile) : Head → Prop
  | .missing | .unresolved => True
  | .at history true => remote <+: history ∧ Good history ∧ history ⊆ files
  | .at history false => history = remote

/-- No file has been overwritten, and what is there can be told apart. -/
structure Inv (w : World) : Prop where
  overwritten : w.overwritten = []
  remote : Good w.remote
  files : ∀ checkout, w.directory = some checkout → Good checkout.files
  head : ∀ checkout, w.directory = some checkout → checkout.head.Sound w.remote checkout.files

section Files

variable {files : List SavedFile}

theorem put_of_new {file : SavedFile} (h : ∀ other ∈ files, other.entry ≠ file.entry) :
    put files file = files ++ [file] := by
  rw [put, List.filter_eq_self.mpr (by simpa using h)]

/-- Where no commit writes over a file, all of them are in the tree. -/
theorem treeOf_eq (h : (files.map SavedFile.entry).Nodup) : treeOf files = files := by
  induction files using List.reverseRecOn with
  | nil => rfl
  | append_singleton files file ih =>
    rw [List.map_append, List.nodup_append] at h
    obtain ⟨hfiles, -, hnew⟩ := h
    rw [treeOf, List.foldl_append, ← treeOf, ih hfiles, List.foldl_cons, List.foldl_nil]
    refine put_of_new fun other hother => ?_
    exact hnew _ (List.mem_map_of_mem hother) _ (by simp)

theorem Good.entry_inj (h : Good files) {file other : SavedFile} (hfile : file ∈ files)
    (hother : other ∈ files) (heq : file.entry = other.entry) : file = other :=
  List.inj_on_of_nodup_map h.entries hfile hother heq

theorem Good.source_inj (h : Good files) {file other : SavedFile} (hfile : file ∈ files)
    (hother : other ∈ files) (heq : file.sourceUrl = other.sourceUrl) : file = other :=
  List.inj_on_of_nodup_map h.sources hfile hother heq

/-- A file of a new name and a new source is a good one to add. -/
theorem Good.append (h : Good files) {file : SavedFile}
    (hentry : ∀ other ∈ files, other.entry ≠ file.entry)
    (hsource : ∀ other ∈ files, other.sourceUrl ≠ file.sourceUrl)
    (hname : isMarkdownName file.entry = true)
    (hread : fileSourceUrl file.content = some (utf16Units file.sourceUrl)) :
    Good (files ++ [file]) where
  entries := by
    rw [List.map_append, List.nodup_append]
    refine ⟨h.entries, List.nodup_singleton _, ?_⟩
    rintro _ hother _ hfile rfl
    obtain ⟨other, hmem, heq⟩ := List.mem_map.mp hother
    exact hentry other hmem (by simpa using heq.trans (List.mem_singleton.mp hfile))
  sources := by
    rw [List.map_append, List.nodup_append]
    refine ⟨h.sources, List.nodup_singleton _, ?_⟩
    rintro _ hother _ hfile rfl
    obtain ⟨other, hmem, heq⟩ := List.mem_map.mp hother
    exact hsource other hmem (by simpa using heq.trans (List.mem_singleton.mp hfile))
  found other hother := by
    rcases List.mem_append.mp hother with hother | hother
    · exact h.found other hother
    · rw [List.mem_singleton.mp hother]
      exact ⟨hname, hread⟩

theorem Good.sublist {part : List SavedFile} (h : Good files) (hpart : part.Sublist files) :
    Good part where
  entries := h.entries.sublist (hpart.map _)
  sources := h.sources.sublist (hpart.map _)
  found file hfile := h.found file (hpart.subset hfile)

end Files

/-- The calls that are allowed: a rebase in a whole checkout, a commit of a file that is new to the branch,
and a new name for a file. -/
def asks (sourceUrl : String) (w : World) : RepoCall → Prop
  | .git .pullRebase | .git .rebaseAbort => ∃ history, w.At history
  | .git (.commit entry) => ∃ history, w.At history ∧ ∀ file ∈ history, file.entry ≠ entry
  | .renameTemporary entry => (∃ history, w.At history) ∧
      (∀ file ∈ w.files, file.entry ≠ entry ∧ file.sourceUrl ≠ sourceUrl) ∧
      isMarkdownName entry = true ∧ fileSourceUrl w.temporary = some (utf16Units sourceUrl)
  | _ => True

def saveContract (sourceUrl : String) : Contract RepoCall RepoCall.Answer World where
  asks := asks sourceUrl
  learns := learns sourceUrl

section Calls

variable {sourceUrl : String} {w w' : World} {history : History}

theorem World.At.resolves (h : w.At history) : w.Resolves history := by
  obtain ⟨checkout, hdirectory, hhead⟩ := h
  exact ⟨checkout, true, hdirectory, hhead⟩

/-- Where `HEAD` resolves, it has all commits of the remote branch. -/
theorem Inv.remote_begins (h : Inv w) (hresolves : w.Resolves history) : w.remote <+: history := by
  obtain ⟨checkout, whole, hdirectory, hhead⟩ := hresolves
  have hsound := h.head checkout hdirectory
  rw [hhead] at hsound
  cases whole with
  | true => exact hsound.1
  | false => exact hsound ▸ List.prefix_rfl

/-- The clone has one history. -/
theorem resolves_unique {history' : History} (h : w.Resolves history) (h' : w.Resolves history') :
    history = history' := by
  obtain ⟨checkout, whole, hdirectory, hhead⟩ := h
  obtain ⟨checkout', whole', hdirectory', hhead'⟩ := h'
  rw [hdirectory] at hdirectory'
  cases hdirectory'
  rw [hhead] at hhead'
  cases hhead'
  rfl

/-- The history of a whole checkout, and the files that it has. -/
theorem Inv.at (h : Inv w) (hat : w.At history) :
    Good history ∧ Good w.files ∧ history ⊆ w.files := by
  obtain ⟨checkout, hdirectory, hhead⟩ := hat
  have hsound := h.head checkout hdirectory
  rw [hhead] at hsound
  rw [World.files, hdirectory]
  exact ⟨hsound.2.1, h.files checkout hdirectory, hsound.2.2⟩

/-- A clone keeps what holds. -/
theorem inv_clone {reply : Except Unit String} (h : Inv w) (hlearns : learnsGit w .clone reply w') :
    Inv w' := by
  have hclone {checkout : Checkout} (hfiles : Good checkout.files)
      (hhead : checkout.head.Sound w.remote checkout.files) :
      Inv { w with directory := some checkout } := by
    refine ⟨h.overwritten, h.remote, fun other hother => ?_, fun other hother => ?_⟩
    · cases hother
      exact hfiles
    · cases hother
      exact hhead
  have htree := treeOf_eq h.remote.entries
  rcases hlearns with ⟨-, rfl | ⟨-, checkout, hpart, rfl⟩⟩ | ⟨-, rfl⟩
  · exact h
  · cases hpart with
    | missing => exact hclone ⟨List.nodup_nil, List.nodup_nil, by simp⟩ trivial
    | unresolved => exact hclone ⟨List.nodup_nil, List.nodup_nil, by simp⟩ trivial
    | checkout files hfiles =>
      rw [htree] at hfiles
      exact hclone (h.remote.sublist hfiles) rfl
  · rw [htree]
    exact hclone h.remote ⟨List.prefix_rfl, h.remote, List.Subset.refl _⟩

/-- A commit keeps what holds, as it names the file of the article. -/
theorem inv_commit {entry : String} {reply : Except Unit String} (h : Inv w)
    (hasks : asks sourceUrl w (.git (.commit entry)))
    (hlearns : learnsGit w (.commit entry) reply w') : Inv w' := by
  rcases hlearns with ⟨-, rfl⟩ | ⟨checkout, history, whole, file, hdirectory, hhead, hfile, rfl, rfl⟩
  · exact h
  obtain ⟨history', hat, hnew⟩ := hasks
  obtain rfl := resolves_unique ⟨checkout, whole, hdirectory, hhead⟩ hat.resolves
  obtain ⟨hhistory, hfiles, hsubset⟩ := h.at hat
  have hopens := h.remote_begins hat.resolves
  rw [World.files, hdirectory] at hfiles hsubset
  have hwhole : whole = true := by
    obtain ⟨checkout', hdirectory', hhead'⟩ := hat
    rw [hdirectory] at hdirectory'
    cases hdirectory'
    rw [hhead] at hhead'
    cases hhead'
    rfl
  -- the source is new to the branch, as its file is
  have hsource : ∀ other ∈ history, other.sourceUrl ≠ file.sourceUrl := by
    intro other hother heq
    obtain rfl := hfiles.source_inj (hsubset hother) hfile heq
    exact hnew _ hother rfl
  refine ⟨h.overwritten, h.remote, fun other hother => ?_, fun other hother => ?_⟩
  · cases hother
    exact hfiles
  · cases hother
    rw [hwhole]
    refine ⟨hopens.trans (List.prefix_append _ _), hhistory.append hnew hsource
      (hfiles.found file hfile).1 (hfiles.found file hfile).2, ?_⟩
    intro other hother
    rcases List.mem_append.mp hother with hother | hother
    · exact hsubset hother
    · rwa [List.mem_singleton.mp hother]

/-- A push keeps what holds: the remote branch takes the commits only whole. -/
theorem inv_push {reply : Except Unit String} (h : Inv w) (hlearns : learnsGit w .push reply w') :
    Inv w' := by
  rcases hlearns with ⟨-, rfl⟩ | ⟨history, ⟨checkout, whole, hdirectory, hhead⟩, -, rfl⟩
  · exact h
  have hsound := h.head checkout hdirectory
  rw [hhead] at hsound
  cases whole with
  | true =>
    refine ⟨h.overwritten, hsound.2.1, h.files, fun other hother => ?_⟩
    obtain rfl : checkout = other := Option.some.inj (hdirectory.symm.trans hother)
    rw [hhead]
    exact ⟨List.prefix_rfl, hsound.2.1, hsound.2.2⟩
  | false =>
    obtain rfl : history = w.remote := hsound
    exact h

/-- Each command of git keeps what holds, whether it is answered or fails. -/
theorem inv_learnsGit {command : GitCommand} {reply : Except Unit String} (h : Inv w)
    (hasks : asks sourceUrl w (.git command)) (hlearns : learnsGit w command reply w') : Inv w' := by
  cases command with
  | clone => exact inv_clone h hlearns
  | verifyHead => rwa [hlearns.1]
  | revParseHead | lsRemote | add => rwa [show w' = w from hlearns]
  | pullRebase | rebaseAbort =>
    obtain ⟨history, hat⟩ := hasks
    rwa [hlearns ⟨history, hat.resolves, h.remote_begins hat.resolves⟩]
  | status entry => rwa [hlearns.1]
  | commit entry => exact inv_commit h hasks hlearns
  | push => exact inv_push h hlearns

/-- Each call of a save keeps what holds, whether it is answered or fails. -/
theorem inv_learns {c : RepoCall} {reply : c.Answer} (h : Inv w) (hasks : asks sourceUrl w c)
    (hlearns : learns sourceUrl w c reply w') : Inv w' := by
  cases c with
  | pathExists path => rwa [hlearns.1]
  | git command => exact inv_learnsGit h hasks hlearns
  | setAside =>
    rcases hlearns with ⟨-, rfl⟩ | rfl
    · exact h
    · exact ⟨h.overwritten, h.remote, fun _ hnone => (by cases hnone), fun _ hnone => (by cases hnone)⟩
  | mkdirParent | mkdirArticles | syncTemporary | closeTemporary => rwa [show w' = w from hlearns]
  | readdir => rwa [hlearns.1]
  | readFile entry => rwa [hlearns.1]
  | openTemporary =>
    obtain ⟨content, rfl⟩ := hlearns
    exact ⟨h.overwritten, h.remote, h.files, h.head⟩
  | writeTemporary content =>
    obtain ⟨written, rfl, -⟩ := hlearns
    exact ⟨h.overwritten, h.remote, h.files, h.head⟩
  | renameTemporary entry =>
    rcases hlearns with ⟨-, rfl⟩ | ⟨checkout, hdirectory, rfl⟩
    · exact h
    obtain ⟨⟨history, hat⟩, hnew, hname, hread⟩ := hasks
    obtain ⟨hhistory, hfiles, hsubset⟩ := h.at hat
    rw [World.files, hdirectory] at hnew hfiles hsubset
    have hnone : (checkout.files.filter fun file =>
        file.entry = entry && file.sourceUrl ≠ sourceUrl) = [] := by
      rw [List.filter_eq_nil_iff]
      intro file hfile
      simp [(hnew file hfile).1]
    have hput : put checkout.files ⟨entry, w.temporary, sourceUrl⟩ =
        checkout.files ++ [⟨entry, w.temporary, sourceUrl⟩] :=
      put_of_new fun file hfile => (hnew file hfile).1
    refine ⟨?_, h.remote, fun other hother => ?_, fun other hother => ?_⟩
    · rw [World.rename, hnone, h.overwritten]
      rfl
    · cases hother
      rw [hput]
      exact hfiles.append (fun file hfile => (hnew file hfile).1) (fun file hfile => (hnew file hfile).2)
        hname hread
    · cases hother
      obtain ⟨checkout', hdirectory', hhead⟩ := hat
      obtain rfl : checkout = checkout' := Option.some.inj (hdirectory.symm.trans hdirectory')
      have hopens := (h.head checkout hdirectory)
      rw [hhead] at hopens ⊢
      rw [hput]
      exact ⟨hopens.1, hhistory, fun file hfile => List.mem_append_left _ (hsubset hfile)⟩

/-! ## Commands -/

/-- A command that changes nothing, however often it is tried. -/
theorem runGit_meets (command : GitCommand) (hasks : asks sourceUrl w (.git command))
    (hsame : ∀ reply w', learnsGit w command reply w' → w' = w) (attempts : Nat) :
    Prog.Meets (saveContract sourceUrl) (fun w' _ => w' = w) w (runGit command attempts) := by
  induction attempts with
  | zero => exact rfl
  | succ attempts ih =>
    refine ⟨hasks, fun reply w' hlearns => ?_⟩
    obtain rfl := hsame reply w' hlearns
    dsimp only
    split
    · exact rfl
    · split
      · exact rfl
      · exact ih

/-- A command that is tried once. -/
theorem runGit_once (command : GitCommand) {Q : World → Except ArchiveError String → Prop}
    (hasks : asks sourceUrl w (.git command))
    (hok : ∀ stdout w', learnsGit w command (.ok stdout) w' → Q w' (.ok stdout))
    (herror : ∀ w', learnsGit w command (.error ()) w' → Q w' (.error (gitFailed command))) :
    Prog.Meets (saveContract sourceUrl) Q w (runGit command 1) := by
  refine ⟨hasks, fun reply w' hlearns => ?_⟩
  cases reply with
  | ok stdout => exact hok stdout w' hlearns
  | error e => exact herror w' hlearns

/-- A look at the remote branch changes nothing. -/
theorem remoteBranchMatchesHead_meets :
    Prog.Meets (saveContract sourceUrl) (fun w' _ => w' = w) w remoteBranchMatchesHead := by
  have hhead : Prog.Meets (saveContract sourceUrl) (fun w' _ => w' = w) w (git .revParseHead) :=
    runGit_meets .revParseHead trivial (fun reply w' h => h) _
  have hremote : Prog.Meets (saveContract sourceUrl) (fun w' _ => w' = w) w (git .lsRemote) :=
    runGit_meets .lsRemote trivial (fun reply w' h => h) _
  refine hhead.andThen ?_ fun w' e h => h
  rintro w' localHead rfl
  refine hremote.andThen ?_ fun w'' e h => h
  rintro w'' remoteBranch rfl
  exact rfl

/-- Where `HEAD` has all commits of the remote branch, there is nothing to pull. -/
theorem pullAttempts_meets (hat : w.At history) (hopens : w.remote <+: history) (attempts : Nat) :
    Prog.Meets (saveContract sourceUrl) (fun w' _ => w' = w) w (pullAttempts attempts) := by
  have hguard : ∃ history, w.Resolves history ∧ w.remote <+: history :=
    ⟨history, hat.resolves, hopens⟩
  induction attempts with
  | zero => exact rfl
  | succ attempts ih =>
    have hpull : Prog.Meets (saveContract sourceUrl) (fun w' _ => w' = w) w (runGit .pullRebase 1) :=
      runGit_meets .pullRebase ⟨history, hat⟩ (fun reply w' h => h hguard) 1
    have habort : Prog.Meets (saveContract sourceUrl) (fun w' _ => w' = w) w (runGit .rebaseAbort 1) :=
      runGit_meets .rebaseAbort ⟨history, hat⟩ (fun reply w' h => h hguard) 1
    refine Prog.Meets.bind (hpull.mono ?_)
    rintro w' result rfl
    cases result with
    | ok stdout => exact rfl
    | error e =>
      refine Prog.Meets.bind (habort.mono ?_)
      rintro w'' result rfl
      split
      · exact rfl
      · exact ih

/-- A push leaves the remote branch as it is, or with the history of `HEAD`, which it has at the end. -/
theorem pushAttempts_meets (hinv : Inv w) (hat : w.At history) (attempts : Nat) :
    Prog.Meets (saveContract sourceUrl)
      (fun w' r => w'.directory = w.directory ∧ (r = .ok () → attempts ≠ 0 → w'.remote = history)) w
      (pushAttempts attempts) := by
  induction attempts generalizing w with
  | zero => exact ⟨rfl, fun _ hne => absurd rfl hne⟩
  | succ attempts ih =>
    have hpushed (reply : Except Unit String) (w' : World) (h : learnsGit w .push reply w') :
        w'.directory = w.directory ∧ Inv w' ∧ (∀ stdout, reply = .ok stdout → w'.remote = history) := by
      refine ⟨?_, inv_push hinv h, ?_⟩
      · rcases h with ⟨-, rfl⟩ | ⟨history', -, -, rfl⟩ <;> rfl
      · rintro stdout rfl
        rcases h with ⟨hfailed, -⟩ | ⟨history', hresolves, -, rfl⟩
        · cases hfailed
        · exact resolves_unique hresolves hat.resolves
    refine Prog.Meets.bind (runGit_once .push trivial ?_ ?_)
    · intro stdout w' h
      obtain ⟨hdirectory, -, hremote⟩ := hpushed _ w' h
      exact ⟨hdirectory, fun _ _ => hremote stdout rfl⟩
    · intro w' h
      obtain ⟨hdirectory, hinv', -⟩ := hpushed _ w' h
      have hat' : w'.At history := by
        rw [World.At, hdirectory]
        exact hat
      dsimp only
      split
      · exact ⟨hdirectory, fun h => by cases h⟩
      · next hne =>
        refine (pullAttempts_meets hat' (hinv'.remote_begins hat'.resolves) _).andThen ?_ ?_
        · rintro w'' _ rfl
          refine (ih hinv' hat').mono fun w₃ r hr => ?_
          exact ⟨hr.1.trans hdirectory, fun hok _ => hr.2 hok hne⟩
        · rintro w'' e rfl
          exact ⟨hdirectory, fun h => by cases h⟩

/-! ## A file is committed and pushed -/

/-- The file of a source is in the working tree, in the tree of `HEAD` and in that of the remote branch. -/
def World.Delivered (w : World) (sourceUrl entry : String) : Prop :=
  ∃ history file, w.At history ∧ file ∈ w.files ∧ file.entry = entry ∧ file.sourceUrl = sourceUrl ∧
    file ∈ treeOf history ∧ file ∈ treeOf w.remote

variable {file : SavedFile}

/-- A file is committed as it is exactly when it is in the history. -/
theorem committed_iff (hinv : Inv w) (hat : w.At history) (hfile : file ∈ w.files) :
    w.Committed file.entry ↔ file ∈ history := by
  obtain ⟨hhistory, hfiles, hsubset⟩ := hinv.at hat
  have htree := treeOf_eq hhistory.entries
  constructor
  · rintro ⟨history', hresolves, hcommitted⟩
    obtain rfl := resolves_unique hresolves hat.resolves
    obtain ⟨committed, hmem, hentry, -⟩ := hcommitted file hfile rfl
    rw [htree] at hmem
    exact hfiles.entry_inj (hsubset hmem) hfile hentry ▸ hmem
  · intro hmem
    refine ⟨history, hat.resolves, fun other hother hentry => ?_⟩
    obtain rfl := hfiles.entry_inj hother hfile hentry
    exact ⟨other, htree.symm ▸ hmem, rfl, rfl⟩

/-- A commit that returns has added the file to the history. -/
theorem commitFile_meets (hinv : Inv w) (hat : w.At history) (hfile : file ∈ w.files)
    (hnew : file ∉ history) :
    Prog.Meets (saveContract sourceUrl) (fun w' r => r = .ok () → Inv w' ∧
      w'.At (history ++ [file]) ∧ w'.files = w.files) w (commitFile file.entry) := by
  have hentry : ∀ other ∈ history, other.entry ≠ file.entry := by
    intro other hother heq
    obtain ⟨-, hfiles, hsubset⟩ := hinv.at hat
    exact hnew (hfiles.entry_inj (hsubset hother) hfile heq ▸ hother)
  have hcommit : asks sourceUrl w (.git (.commit file.entry)) := ⟨history, hat, hentry⟩
  have hadd : Prog.Meets (saveContract sourceUrl) (fun w' _ => w' = w) w (git (.add file.entry)) :=
    runGit_meets (.add file.entry) trivial (fun reply w' h => h) _
  refine hadd.andThen ?_ fun w' e _ => (fun h => by cases h)
  rintro w' _ rfl
  have hcommitted : Prog.Meets (saveContract sourceUrl) (fun w'' r => ∀ stdout, r = .ok stdout →
      Inv w'' ∧ w''.At (history ++ [file]) ∧ w''.files = w'.files) w' (git (.commit file.entry)) := by
    refine runGit_once (.commit file.entry) hcommit ?_ fun w'' _ stdout h => by cases h
    intro stdout w'' h stdout' hok
    have hinv'' := inv_commit hinv hcommit h
    rcases h with ⟨hfailed, -⟩ | ⟨checkout, history', whole, other, hdirectory, hhead, hother, hname, rfl⟩
    · cases hfailed
    obtain ⟨checkout', hdirectory', hhead'⟩ := hat
    obtain rfl : checkout = checkout' := Option.some.inj (hdirectory.symm.trans hdirectory')
    rw [hhead] at hhead'
    cases hhead'
    obtain rfl : other = file := by
      refine (hinv.files checkout hdirectory).entry_inj hother ?_ hname
      rwa [World.files, hdirectory] at hfile
    refine ⟨hinv'', ⟨_, rfl, rfl⟩, ?_⟩
    simp [World.files, hdirectory]
  refine hcommitted.andThen (fun w'' stdout h _ => h stdout rfl) fun w'' e _ => (fun h => by cases h)

/-- The push that follows delivers the file. -/
theorem push_meets (hinv : Inv w) (hat : w.At history) (hfile : file ∈ w.files)
    (hmem : file ∈ history) :
    Prog.Meets (saveContract sourceUrl)
      (fun w' r => r = .ok () → w'.Delivered file.sourceUrl file.entry) w pushWithRebaseRetry := by
  refine (pushAttempts_meets hinv hat _).mono fun w' r hr hok => ?_
  obtain ⟨hdirectory, hremote⟩ := hr
  have hhistory := treeOf_eq (hinv.at hat).1.entries
  refine ⟨history, file, ?_, ?_, rfl, rfl, hhistory.symm ▸ hmem, ?_⟩
  · rw [World.At, hdirectory]
    exact hat
  · rwa [World.files, hdirectory]
  · rw [hremote hok (by decide), hhistory]
    exact hmem

/-- A commit and push that return have delivered the file. -/
theorem commitAndPush_meets (hinv : Inv w) (hat : w.At history) (hfile : file ∈ w.files) :
    Prog.Meets (saveContract sourceUrl)
      (fun w' r => r = .ok () → w'.Delivered file.sourceUrl file.entry) w
      (commitAndPush file.entry) := by
  have hstatus : Prog.Meets (saveContract sourceUrl) (fun w' r => w' = w ∧ ∀ stdout, r = .ok stdout →
      (trimText stdout = "" ↔ file ∈ history)) w (git (.status file.entry)) := by
    refine runGit_once (.status file.entry) trivial ?_ fun w' h => ⟨h.1, fun stdout h => by cases h⟩
    rintro stdout w' ⟨rfl, h⟩
    refine ⟨rfl, fun stdout' hok => ?_⟩
    cases hok
    rw [h stdout rfl, committed_iff hinv hat hfile]
  refine hstatus.andThen ?_ fun w' e _ => (fun h => by cases h)
  rintro w' stdout ⟨rfl, hblank⟩
  split
  · next h => exact push_meets hinv hat hfile ((hblank stdout rfl).mp h)
  · next h =>
    refine (commitFile_meets hinv hat hfile fun hmem => h ((hblank stdout rfl).mpr hmem)).andThen ?_
      fun w'' e _ => (fun h => by cases h)
    intro w'' _ hcommitted
    obtain ⟨hinv'', hat'', hfiles⟩ := hcommitted rfl
    exact push_meets hinv'' hat'' (hfiles ▸ hfile) (by simp)

/-! ## The lookup -/

/-- What a lookup says of the files with names among the entries. -/
def LooksUp (sourceUrl : String) (w : World) (entries : List String) (r : Except ArchiveError (Option String)) :
    Prop :=
  (∀ entry, r = .ok (some entry) → ∃ file ∈ w.files, file.entry = entry ∧ file.sourceUrl = sourceUrl) ∧
    (r = .ok none → ∀ file ∈ w.files, file.entry ∈ entries → file.sourceUrl ≠ sourceUrl)

theorem LooksUp.error (e : ArchiveError) (entries : List String) :
    LooksUp sourceUrl w entries (.error e) :=
  ⟨fun entry h => (by cases h), fun h => (by cases h)⟩

/-- The search of the entries finds the file of the source, if there is one. -/
theorem findEntry_meets (hgood : Good w.files) {entries : List String}
    (hentries : ∀ entry ∈ entries, isMarkdownName entry = true → ∃ file ∈ w.files, file.entry = entry) :
    Prog.Meets (saveContract sourceUrl) (fun w' r => w' = w ∧ LooksUp sourceUrl w entries r) w
      (findEntry sourceUrl entries) := by
  induction entries with
  | nil => exact ⟨rfl, fun entry h => (by cases h), fun _ file _ h => (by cases h)⟩
  | cons entry entries ih =>
    have hrest := ih fun other hother => hentries other (List.mem_cons_of_mem _ hother)
    -- an entry that is passed over is none of the source
    have hpassed (hother : ∀ file ∈ w.files, file.entry = entry → file.sourceUrl ≠ sourceUrl) :
        Prog.Meets (saveContract sourceUrl)
          (fun w' r => w' = w ∧ LooksUp sourceUrl w (entry :: entries) r) w
          (findEntry sourceUrl entries) := by
      refine hrest.mono fun w' r hr => ⟨hr.1, hr.2.1, fun hnone file hfile hmem => ?_⟩
      rcases List.mem_cons.mp hmem with heq | hmem
      · exact hother file hfile heq
      · exact hr.2.2 hnone file hfile hmem
    rw [findEntry]
    split
    · next hname =>
      refine hpassed fun file hfile heq => ?_
      rw [← heq, (hgood.found file hfile).1] at hname
      cases hname
    · next hname =>
      obtain ⟨file, hfile, rfl⟩ := hentries entry List.mem_cons_self (by simpa using hname)
      refine ⟨trivial, fun reply w' hlearns => ?_⟩
      obtain ⟨rfl, hcontent⟩ := hlearns
      cases reply with
      | error e => exact ⟨rfl, LooksUp.error e _⟩
      | ok content =>
        obtain ⟨other, hother, hentry, rfl⟩ := hcontent content rfl
        obtain rfl := hgood.entry_inj hfile hother hentry.symm
        have hsource : fileSourceUrl file.content = some (utf16Units sourceUrl) ↔
            file.sourceUrl = sourceUrl := by
          rw [(hgood.found file hfile).2, Option.some.injEq, utf16Units_injective.eq_iff]
        dsimp only
        split
        · next heq =>
          refine ⟨rfl, fun entry h => ?_, fun h => (by cases h)⟩
          cases h
          exact ⟨file, hfile, rfl, hsource.mp heq⟩
        · next hne =>
          refine hpassed fun other hother heq => ?_
          rw [hgood.entry_inj hother hfile heq]
          exact mt hsource.mpr hne

/-- The search of the directory finds the file of the source, if there is one. -/
theorem findSourceUrl_meets (hgood : Good w.files) :
    Prog.Meets (saveContract sourceUrl)
      (fun w' r => w' = w ∧ LooksUp sourceUrl w (w.files.map SavedFile.entry) r) w
      (findSourceUrl sourceUrl) := by
  refine ⟨trivial, fun reply w' hlearns => ?_⟩
  obtain ⟨rfl, hhas⟩ := hlearns
  cases reply with
  | false =>
    refine ⟨rfl, fun entry h => (by cases h), fun _ file hfile => ?_⟩
    rw [hhas rfl] at hfile
    cases hfile
  | true =>
    refine ⟨trivial, fun reply w'' hlearns => ?_⟩
    obtain ⟨rfl, hread⟩ := hlearns
    cases reply with
    | error e => exact ⟨rfl, LooksUp.error e _⟩
    | ok entries =>
      have hperm := hread entries rfl
      refine (findEntry_meets hgood fun entry hentry hname => ?_).mono fun w' r hr =>
        ⟨hr.1, hr.2.1, fun hnone file hfile _ => hr.2.2 hnone file hfile ?_⟩
      · have hmem := hperm.subset (List.mem_filter.mpr ⟨hentry, hname⟩)
        exact List.mem_map.mp (List.mem_filter.mp hmem).1
      · have hmem := List.mem_filter.mpr ⟨List.mem_map_of_mem hfile, (hgood.found file hfile).1⟩
        exact (List.mem_filter.mp (hperm.symm.subset hmem)).1

/-! ## A new file -/

/-- A temporary file that was written has the content of the article. -/
theorem writeTemporary_meets (content : String) :
    Prog.Meets (saveContract sourceUrl) (fun w' r => ∃ written,
      w' = { w with temporary := written } ∧ (r = .ok () → written = content)) w
      (writeTemporary content) := by
  refine ⟨trivial, fun reply w' hlearns => ?_⟩
  obtain ⟨opened, rfl⟩ := hlearns
  cases reply with
  | error e => exact ⟨opened, rfl, fun h => by cases h⟩
  | ok _ =>
    refine ⟨trivial, fun reply w' hlearns => ?_⟩
    obtain ⟨written, rfl, hwritten⟩ := hlearns
    have hclosed {r : Except ArchiveError Unit} (hr : r = .ok () → written = content)
        {k : RepoCall.closeTemporary.Answer → RepoProg Unit} (herror : ∀ e, k (.error e) = .ret (.error e))
        (hok : ∀ u, k (.ok u) = .ret r) :
        Prog.Meets (saveContract sourceUrl) (fun w' r => ∃ written,
          w' = { w with temporary := written } ∧ (r = .ok () → written = content))
          { w with temporary := written } (.call .closeTemporary k) := by
      refine ⟨trivial, fun reply w' hlearns => ?_⟩
      obtain rfl : w' = _ := hlearns
      cases reply with
      | error e =>
        rw [herror]
        exact ⟨written, rfl, fun h => by cases h⟩
      | ok u =>
        rw [hok]
        exact ⟨written, rfl, hr⟩
    cases reply with
    | error e => exact hclosed (fun h => by cases h) (fun _ => rfl) fun _ => rfl
    | ok _ =>
      refine ⟨trivial, fun synced w' hlearns => ?_⟩
      obtain rfl : w' = _ := hlearns
      exact hclosed (fun _ => hwritten rfl) (fun _ => rfl) fun _ => rfl

/-- The suffixed name of a file is not that of another source, where the name itself is taken. -/
def FreeName (env : ArchiveEnv) (input : ArticleFile) (files : List SavedFile) : Prop :=
  (∃ file ∈ files, file.entry = input.filename) → ∀ file ∈ files,
    file.entry = suffixedName env input.filename input.sourceUrl → file.sourceUrl = input.sourceUrl

/-- The file of a new article gets its free name, and is committed and pushed. -/
theorem createFile_meets {input : ArticleFile} {filename : String} (hinv : Inv w) (hat : w.At history)
    (hname : isMarkdownName filename = true)
    (hread : fileSourceUrl input.content = some (utf16Units input.sourceUrl))
    (hnew : ∀ file ∈ w.files, file.entry ≠ filename ∧ file.sourceUrl ≠ input.sourceUrl) :
    Prog.Meets (saveContract input.sourceUrl)
      (fun w' r => ∀ saved, r = .ok saved → w'.Delivered input.sourceUrl saved.filename) w
      (createFile input filename) := by
  refine ((writeTemporary_meets input.content).keeps (fun _ _ _ _ => inv_learns) hinv).andThen ?_
    fun w₂ e _ => (fun saved h => by cases h)
  rintro w₂ _ ⟨hinv₂, written, rfl, hwritten⟩
  obtain rfl := hwritten rfl
  have hasks : asks input.sourceUrl { w with temporary := input.content }
      (.renameTemporary filename) := ⟨⟨history, hat⟩, hnew, hname, hread⟩
  refine ⟨hasks, fun reply w₃ hlearns => ?_⟩
  have hinv₃ := inv_learns hinv₂ hasks hlearns
  cases reply with
  | error e => exact fun saved h => by cases h
  | ok _ =>
  rcases hlearns with ⟨⟨e, he⟩, -⟩ | ⟨checkout, hdirectory, rfl⟩
  · cases he
  have hat₃ : World.At (World.rename { w with temporary := input.content } checkout filename
      input.sourceUrl) history := by
    obtain ⟨checkout', hdirectory', hhead⟩ := hat
    obtain rfl : checkout = checkout' := Option.some.inj (hdirectory.symm.trans hdirectory')
    exact ⟨_, rfl, hhead⟩
  have hfile : (⟨filename, input.content, input.sourceUrl⟩ : SavedFile) ∈
      (World.rename { w with temporary := input.content } checkout filename
        input.sourceUrl).files := by
    simp [World.rename, World.files, put]
  refine (commitAndPush_meets hinv₃ hat₃ hfile).andThen (fun w₄ _ h saved hsaved => ?_)
    fun w₄ e _ => (fun saved h => by cases h)
  cases hsaved
  exact h rfl

/-- A save of an article that has no file delivers one under a free name. -/
theorem saveNew_meets {env : ArchiveEnv} {input : ArticleFile} (hinv : Inv w) (hat : w.At history)
    (hname : isMarkdownName input.filename = true)
    (hread : fileSourceUrl input.content = some (utf16Units input.sourceUrl))
    (hfree : FreeName env input w.files)
    (hnone : ∀ file ∈ w.files, file.sourceUrl ≠ input.sourceUrl) :
    Prog.Meets (saveContract input.sourceUrl)
      (fun w' r => ∀ saved, r = .ok saved → w'.Delivered input.sourceUrl saved.filename) w
      (saveNew env input) := by
  refine ⟨trivial, fun reply w' hlearns => ?_⟩
  obtain rfl : w' = w := hlearns
  cases reply with
  | error e => exact fun saved h => by cases h
  | ok _ =>
    refine ⟨trivial, fun taken w'' hlearns => ?_⟩
    obtain ⟨rfl, htaken⟩ := hlearns
    cases taken with
    | false =>
      refine createFile_meets hinv hat hname hread fun file hfile => ⟨fun heq => ?_, hnone file hfile⟩
      exact List.any_eq_false.mp (Eq.symm htaken) file hfile (by simpa using heq)
    | true =>
      obtain ⟨other, hother, hentry⟩ := List.any_eq_true.mp (Eq.symm htaken)
      refine createFile_meets hinv hat (isMarkdownName_append _) hread fun file hfile =>
        ⟨fun heq => hnone file hfile ?_, hnone file hfile⟩
      exact hfree ⟨other, hother, by simpa using hentry⟩ file hfile heq

/-! ## A save -/

/-- A clone that returns has the files of the remote branch. -/
theorem cloneRepository_meets :
    Prog.Meets (saveContract sourceUrl) (fun w' r => ∀ cloned, r = .ok cloned →
      (∃ history, w'.At history) ∧ w'.files = treeOf w.remote) w cloneRepository := by
  refine ⟨trivial, fun reply w' hlearns => ?_⟩
  obtain rfl : w' = w := hlearns
  cases reply with
  | error e => exact fun cloned h => by cases h
  | ok _ =>
    have hclone : Prog.Meets (saveContract sourceUrl) (fun w'' r => ∀ stdout, r = .ok stdout →
        (∃ history, w''.At history) ∧ w''.files = treeOf w'.remote) w' (runGit .clone 1) := by
      refine runGit_once .clone trivial ?_ fun w'' _ stdout h => by cases h
      rintro stdout w'' (⟨hfailed, -⟩ | ⟨-, rfl⟩) stdout' -
      · cases hfailed
      · exact ⟨⟨_, _, rfl, rfl⟩, rfl⟩
    exact hclone.andThen (fun w'' stdout h _ _ => h stdout rfl) fun w'' e _ => (fun _ h => by cases h)

theorem setAsideAndClone_meets :
    Prog.Meets (saveContract sourceUrl) (fun w' r => ∀ cloned, r = .ok cloned →
      (∃ history, w'.At history) ∧ w'.files = treeOf w.remote) w setAsideAndClone := by
  refine ⟨trivial, fun reply w' hlearns => ?_⟩
  cases reply with
  | error e => exact fun cloned h => by cases h
  | ok _ =>
    rcases hlearns with ⟨⟨e, he⟩, -⟩ | rfl
    · cases he
    · exact cloneRepository_meets

/-- The repository that a save works in is the one that was there, or a clone of the remote branch. -/
theorem ensureRepository_meets (hwhole : ∀ history, w.Resolves history → w.At history) :
    Prog.Meets (saveContract sourceUrl) (fun w' r => ∀ cloned, r = .ok cloned →
      (∃ history, w'.At history) ∧ (w'.files = w.files ∨ w'.files = treeOf w.remote)) w
      ensureRepository := by
  have hcloned {w' : World} {r : Except ArchiveError Bool} (h : ∀ cloned, r = .ok cloned →
      (∃ history, w'.At history) ∧ w'.files = treeOf w.remote) : ∀ cloned, r = .ok cloned →
      (∃ history, w'.At history) ∧ (w'.files = w.files ∨ w'.files = treeOf w.remote) :=
    fun cloned hr => ⟨(h cloned hr).1, Or.inr (h cloned hr).2⟩
  refine ⟨trivial, fun hasGit w' hlearns => ?_⟩
  obtain ⟨rfl, -⟩ := hlearns
  cases hasGit with
  | true =>
    have hverify : Prog.Meets (saveContract sourceUrl) (fun w'' r => w'' = w' ∧ ∀ stdout,
        r = .ok stdout → ∃ history, w'.Resolves history) w' (git .verifyHead) :=
      runGit_once .verifyHead trivial
        (fun stdout w'' h => ⟨h.1, fun _ _ => h.2 stdout rfl⟩)
        (fun w'' h => ⟨h.1, fun stdout h => by cases h⟩)
    refine Prog.Meets.bind (hverify.mono ?_)
    rintro w'' result ⟨rfl, hresolves⟩
    cases result with
    | ok stdout =>
      obtain ⟨history, hresolves⟩ := hresolves stdout rfl
      exact fun _ _ => ⟨⟨history, hwhole history hresolves⟩, Or.inl rfl⟩
    | error e => exact setAsideAndClone_meets.mono fun _ _ => hcloned
  | false =>
    refine ⟨trivial, fun hasRepository w'' hlearns => ?_⟩
    obtain ⟨rfl, -⟩ := hlearns
    cases hasRepository with
    | true => exact setAsideAndClone_meets.mono fun _ _ => hcloned
    | false => exact cloneRepository_meets.mono fun _ _ => hcloned

/-- What has been saved in full is delivered. -/
theorem save_meets {env : ArchiveEnv} {input : ArticleFile} (hinv : Inv w)
    (hwhole : ∀ history, w.Resolves history → w.At history)
    (hname : isMarkdownName input.filename = true)
    (hread : fileSourceUrl input.content = some (utf16Units input.sourceUrl))
    (hfree : FreeName env input w.files) (hfreeRemote : FreeName env input (treeOf w.remote)) :
    Prog.Meets (saveContract input.sourceUrl)
      (fun w' r => ∀ saved, r = .ok saved → w'.Delivered input.sourceUrl saved.filename) w
      (save env input) := by
  refine ((ensureRepository_meets hwhole).keeps (fun _ _ _ _ => inv_learns) hinv).andThen ?_
    fun w' e _ => (fun saved h => by cases h)
  rintro w' initialized ⟨hinv', hready⟩
  obtain ⟨⟨history, hat⟩, hfiles⟩ := hready initialized rfl
  have hfree' : FreeName env input w'.files := by
    rcases hfiles with h | h
    · rwa [h]
    · rwa [h]
  have hsync : Prog.Meets (saveContract input.sourceUrl) (fun w'' _ => w'' = w') w'
      (if initialized then .ret (.ok ()) else remoteBranchMatchesHead.andThen fun same =>
        if same then .ret (.ok ()) else pullRebaseSafely) := by
    split
    · exact rfl
    · refine remoteBranchMatchesHead_meets.andThen ?_ fun w'' e h => h
      rintro w'' same rfl
      split
      · exact rfl
      · exact pullAttempts_meets hat (hinv'.remote_begins hat.resolves) _
  refine hsync.andThen ?_ fun w'' e _ => (fun saved h => by cases h)
  rintro w'' _ rfl
  refine (findSourceUrl_meets (hinv'.at hat).2.1).andThen ?_ fun w₂ e _ => (fun saved h => by cases h)
  rintro w₂ found ⟨rfl, hsome, hnone⟩
  cases found with
  | some filename =>
    obtain ⟨file, hfile, rfl, hsource⟩ := hsome filename rfl
    refine (commitAndPush_meets hinv' hat hfile).andThen (fun w₃ _ h saved hsaved => ?_)
      fun w₃ e _ => (fun saved h => by cases h)
    cases hsaved
    rw [← hsource]
    exact h rfl
  | none =>
    exact saveNew_meets hinv' hat hname hread hfree' fun file hfile =>
      hnone rfl file hfile (List.mem_map_of_mem hfile)

end Calls

/-! ## All saves -/

/-- Nothing has been saved. -/
def start : World := ⟨none, [], "", []⟩

/-- What the archiver gives to `save`. -/
structure Produced (env : ArchiveEnv) (input : ArticleFile) (article : ExtractedArticle) : Prop where
  content : ∃ archivedAt tags, renderArticleMarkdown env articleTemplateSource archivedAt article
    input.sourceUrl tags = .ok input.content
  filename : ∃ title archivedAt, input.filename = buildArchiveFilename env title archivedAt

/-- What a save takes for granted. -/
structure Admissible (env : ArchiveEnv) (w : World) (input : ArticleFile) (article : ExtractedArticle) :
    Prop where
  /-- The front matter shows the URL to the lookup. -/
  title : ¬ OpensSourceUrl article.title.toList
  url : input.sourceUrl.toList.any isSeparator = false
  /-- A clone that is there has been checked out to its end. -/
  whole : ∀ history, w.Resolves history → w.At history
  /-- The suffix makes a name new, in what is there and in a clone of it. -/
  names : FreeName env input w.files ∧ FreeName env input (treeOf w.remote)

/-- A save, which returns, throws, or is cut off. -/
inductive Step (env : ArchiveEnv) (w : World) : World → Prop
  | save {input : ArticleFile} {article : ExtractedArticle} {w' : World}
      {result : Option (Except ArchiveError SavedArticle)} (produced : Produced env input article)
      (admissible : Admissible env w input article)
      (h : Prog.Reaches (learns input.sourceUrl) w (save env input) w' result) : Step env w w'

section Saves

variable {env : ArchiveEnv} {w w' : World} {input : ArticleFile} {article : ExtractedArticle}

theorem inv_start : Inv start :=
  ⟨rfl, ⟨List.nodup_nil, List.nodup_nil, by simp [start]⟩, fun _ h => (by cases h),
    fun _ h => (by cases h)⟩

/-- A save that returns has delivered the file that it names. -/
theorem admissible_meets (hfills : env.FillsTemplate) (hinv : Inv w)
    (hproduced : Produced env input article) (hadmissible : Admissible env w input article) :
    Prog.Meets (saveContract input.sourceUrl)
      (fun w' r => ∀ saved, r = .ok saved → w'.Delivered input.sourceUrl saved.filename) w
      (save env input) := by
  obtain ⟨archivedAt, tags, hrender⟩ := hproduced.content
  obtain ⟨title, instant, hfilename⟩ := hproduced.filename
  obtain ⟨body, hbody⟩ := render_content hfills hrender
  have hread : fileSourceUrl input.content = some (utf16Units input.sourceUrl) := by
    rcases fileSourceUrl_content hbody with ⟨hread, -⟩ | ⟨-, hopens | hseparator⟩
    · exact hread
    · exact absurd hopens hadmissible.title
    · rw [hadmissible.url] at hseparator
      cases hseparator
  exact save_meets hinv hadmissible.whole
    (hfilename ▸ buildArchiveFilename_isMarkdown env title instant) hread hadmissible.names.1
    hadmissible.names.2

theorem inv_step (hfills : env.FillsTemplate) (hinv : Inv w) (hstep : Step env w w') : Inv w' := by
  cases hstep with
  | save hproduced hadmissible hreaches =>
    exact ((admissible_meets hfills hinv hproduced hadmissible).reaches (fun _ _ _ _ => inv_learns)
      hinv hreaches).1

end Saves

/--
**No article is overwritten or saved twice.** After any saves, wherever they have been cut off: no file
has been put in the place of another source's, a source has at most one file, and no commit of the remote
branch writes over a file; and a save that returns has left its file in the remote branch.
-/
theorem saves_safe (env : ArchiveEnv) (hfills : env.FillsTemplate) (w : World)
    (hrun : Relation.ReflTransGen (Step env) start w) :
    (w.overwritten = [] ∧ (w.files.map SavedFile.sourceUrl).Nodup ∧
      (w.remote.map SavedFile.entry).Nodup ∧ ((treeOf w.remote).map SavedFile.sourceUrl).Nodup) ∧
    ∀ input article w' saved, Produced env input article → Admissible env w input article →
      Prog.Reaches (learns input.sourceUrl) w (save env input) w' (some (.ok saved)) →
      w'.Delivered input.sourceUrl saved.filename := by
  have hinv : Inv w := by
    induction hrun with
    | refl => exact inv_start
    | tail _ hstep ih => exact inv_step hfills ih hstep
  refine ⟨⟨hinv.overwritten, ?_, hinv.remote.entries, ?_⟩, ?_⟩
  · cases hdirectory : w.directory with
    | none => simp [World.files, hdirectory]
    | some checkout =>
      rw [World.files, hdirectory]
      exact (hinv.files checkout hdirectory).sources
  · rw [treeOf_eq hinv.remote.entries]
    exact hinv.remote.sources
  · intro input article w' saved hproduced hadmissible hreaches
    exact ((admissible_meets hfills hinv hproduced hadmissible).reaches (fun _ _ _ _ => inv_learns)
      hinv hreaches).2 _ rfl saved rfl

/-! ### Runs without failures -/

namespace Sample

/-- git and the file system, where nothing fails; a commit is known by how many there are before it. -/
def serve (sourceUrl : String) (w : World) : (c : RepoCall) → World × c.Answer
  | .pathExists .gitDir =>
    (w, w.directory.any fun checkout => checkout.head matches .unresolved | .at ..)
  | .pathExists .repository => (w, w.directory.isSome)
  | .pathExists .articles => (w, true)
  | .pathExists (.article entry) => (w, w.files.any (·.entry = entry))
  | .git command =>
    match command, w.directory with
    | .clone, none => ({ w with directory := some ⟨.at w.remote true, treeOf w.remote⟩ }, .ok "")
    | .revParseHead, some ⟨.at history _, _⟩ => (w, .ok (toString history.length ++ "\n"))
    | .lsRemote, _ => (w, .ok (toString w.remote.length ++ "\trefs/heads/main\n"))
    | .verifyHead, some ⟨.at .., _⟩ | .pullRebase, some ⟨.at .., _⟩ | .add _, some ⟨.at .., _⟩ =>
      (w, .ok "")
    | .status entry, some ⟨.at history _, files⟩ =>
      (w, .ok (if files.all fun file => file.entry ≠ entry || (treeOf history).any fun committed =>
        committed.entry = entry && committed.content = file.content then "" else "?? " ++ entry ++ "\n"))
    | .commit entry, some ⟨.at history whole, files⟩ =>
      match files.find? (·.entry = entry) with
      | some file => ({ w with directory := some ⟨.at (history ++ [file]) whole, files⟩ }, .ok "")
      | none => (w, .error ())
    | .push, some ⟨.at history _, _⟩ =>
      if w.remote.isPrefixOf history then ({ w with remote := history }, .ok "") else (w, .error ())
    | _, _ => (w, .error ())
  | .setAside => ({ w with directory := none }, .ok ())
  | .mkdirParent | .mkdirArticles | .syncTemporary | .closeTemporary => (w, .ok ())
  | .readdir => (w, .ok (w.files.map SavedFile.entry))
  | .readFile entry =>
    (w, match w.files.find? (·.entry = entry) with
      | some file => .ok file.content
      | none => .error .other)
  | .openTemporary => ({ w with temporary := "" }, .ok ())
  | .writeTemporary content => ({ w with temporary := content }, .ok ())
  | .renameTemporary entry =>
    match w.directory with
    | some checkout => (w.rename checkout entry sourceUrl, .ok ())
    | none => (w, .error .other)

/-- The status of an untracked file is not blank. -/
theorem trimText_untracked (text : String) : trimText ("?? " ++ text) ≠ "" := by
  obtain ⟨kept, -, htrim⟩ := trimText_toList (c := '?') (d := '?') rfl rfl [] (' ' :: text.toList)
  intro h
  have hempty : (trimText ("?? " ++ text)).toList = [] := by rw [h]; rfl
  have htext : "?? " ++ text = String.ofList ('?' :: ([] ++ '?' :: (' ' :: text.toList))) := by
    apply String.toList_inj.mp
    simp
  rw [htext, htrim] at hempty
  cases hempty

/-- What `find?` finds is there, under the name. -/
theorem find?_entry {files : List SavedFile} {entry : String} {file : SavedFile}
    (h : files.find? (·.entry = entry) = some file) : file ∈ files ∧ file.entry = entry :=
  ⟨List.mem_of_find?_eq_some h, by simpa using List.find?_some h⟩

theorem serve_readFile (sourceUrl : String) (w : World) (entry : String) :
    serve sourceUrl w (.readFile entry) =
      (w, match w.files.find? (·.entry = entry) with
        | some file => .ok file.content
        | none => .error .other) := rfl

theorem serve_commit (sourceUrl : String) (history : History) (whole : Bool) (files : List SavedFile)
    (remote : History) (temporary : String) (overwritten : List SavedFile) (entry : String) :
    serve sourceUrl ⟨some ⟨.at history whole, files⟩, remote, temporary, overwritten⟩
        (.git (.commit entry)) =
      match files.find? (·.entry = entry) with
      | some file =>
        (⟨some ⟨.at (history ++ [file]) whole, files⟩, remote, temporary, overwritten⟩, .ok "")
      | none => (⟨some ⟨.at history whole, files⟩, remote, temporary, overwritten⟩, .error ()) := rfl

theorem serve_push (sourceUrl : String) (history : History) (whole : Bool) (files : List SavedFile)
    (remote : History) (temporary : String) (overwritten : List SavedFile) :
    serve sourceUrl ⟨some ⟨.at history whole, files⟩, remote, temporary, overwritten⟩ (.git .push) =
      if remote.isPrefixOf history then
        (⟨some ⟨.at history whole, files⟩, history, temporary, overwritten⟩, .ok "")
      else (⟨some ⟨.at history whole, files⟩, remote, temporary, overwritten⟩, .error ()) := rfl

/-- The repository that the samples run on does what is relied on of git. -/
theorem serve_learnsGit (sourceUrl : String) (w : World) (command : GitCommand) :
    learnsGit w command (serve sourceUrl w (.git command)).2 (serve sourceUrl w (.git command)).1 := by
  obtain ⟨directory, remote, temporary, overwritten⟩ := w
  -- every other command needs a checkout whose head is a whole commit
  cases command with
  | clone =>
    cases directory with
    | none => exact Or.inr ⟨rfl, rfl⟩
    | some checkout => exact Or.inl ⟨rfl, Or.inl rfl⟩
  | verifyHead =>
    rcases directory with _ | ⟨_ | _ | ⟨history, whole⟩, files⟩
    · exact ⟨rfl, fun stdout h => by cases h⟩
    · exact ⟨rfl, fun stdout h => by cases h⟩
    · exact ⟨rfl, fun stdout h => by cases h⟩
    · exact ⟨rfl, fun stdout _ => ⟨history, _, whole, rfl, rfl⟩⟩
  | revParseHead | lsRemote | add =>
    rcases directory with _ | ⟨_ | _ | ⟨history, whole⟩, files⟩ <;> rfl
  | pullRebase | rebaseAbort =>
    rcases directory with _ | ⟨_ | _ | ⟨history, whole⟩, files⟩ <;> exact fun _ => rfl
  | status entry =>
    rcases directory with _ | ⟨_ | _ | ⟨history, whole⟩, files⟩
    · exact ⟨rfl, fun stdout h => by cases h⟩
    · exact ⟨rfl, fun stdout h => by cases h⟩
    · exact ⟨rfl, fun stdout h => by cases h⟩
    · refine ⟨rfl, fun stdout h => ?_⟩
      obtain rfl := Except.ok.inj h
      -- the status is empty exactly where the entry is as the head has it
      have hcommitted : World.Committed ⟨some ⟨.at history whole, files⟩, remote, temporary, overwritten⟩
          entry ↔ (files.all fun file => file.entry ≠ entry || (treeOf history).any fun committed =>
            committed.entry = entry && committed.content = file.content) = true := by
        simp only [List.all_eq_true, Bool.or_eq_true, List.any_eq_true, Bool.and_eq_true,
          decide_eq_true_eq, ne_eq, decide_not, Bool.not_eq_true', decide_eq_false_iff_not]
        constructor
        · rintro ⟨history', hresolves, h⟩ file hfile
          obtain rfl := resolves_unique hresolves ⟨_, whole, rfl, rfl⟩
          exact or_iff_not_imp_left.mpr fun hentry => h file hfile (not_not.mp hentry)
        · intro h
          refine ⟨history, ⟨_, whole, rfl, rfl⟩, fun file hfile hentry => ?_⟩
          exact (h file hfile).resolve_left (not_not.mpr hentry)
      rw [hcommitted]
      split
      · next hall => exact iff_of_true rfl hall
      · next hall =>
        refine iff_of_false ?_ hall
        rw [String.append_assoc]
        exact trimText_untracked _
  | commit entry =>
    rcases directory with _ | ⟨_ | _ | ⟨history, whole⟩, files⟩
    · exact Or.inl ⟨rfl, rfl⟩
    · exact Or.inl ⟨rfl, rfl⟩
    · exact Or.inl ⟨rfl, rfl⟩
    · rw [serve_commit]
      split
      · next file hfile =>
        obtain ⟨hmem, hentry⟩ := find?_entry hfile
        exact Or.inr ⟨_, history, whole, file, rfl, rfl, hmem, hentry, rfl⟩
      · exact Or.inl ⟨rfl, rfl⟩
  | push =>
    rcases directory with _ | ⟨_ | _ | ⟨history, whole⟩, files⟩
    · exact Or.inl ⟨rfl, rfl⟩
    · exact Or.inl ⟨rfl, rfl⟩
    · exact Or.inl ⟨rfl, rfl⟩
    · rw [serve_push]
      split
      · next hopens =>
        exact Or.inr ⟨history, ⟨_, whole, rfl, rfl⟩, List.isPrefixOf_iff_prefix.mp hopens, rfl⟩
      · exact Or.inl ⟨rfl, rfl⟩

theorem serve_learns (sourceUrl : String) (w : World) (c : RepoCall) :
    learns sourceUrl w c (serve sourceUrl w c).2 (serve sourceUrl w c).1 := by
  obtain ⟨directory, remote, temporary, overwritten⟩ := w
  cases c with
  | pathExists path =>
    cases path with
    | gitDir => exact ⟨rfl, rfl⟩
    | repository => exact ⟨rfl, rfl⟩
    | articles => exact ⟨rfl, fun h => by cases h⟩
    | article entry => exact ⟨rfl, rfl⟩
  | git command => exact serve_learnsGit sourceUrl _ command
  | setAside => exact Or.inr rfl
  | mkdirParent | mkdirArticles | syncTemporary | closeTemporary => exact rfl
  | readdir =>
    refine ⟨rfl, fun entries h => ?_⟩
    cases h
    exact .refl _
  | readFile entry =>
    refine ⟨rfl, fun content h => ?_⟩
    rw [serve_readFile] at h
    dsimp only at h
    split at h
    · next file hfile =>
      cases h
      exact ⟨file, (find?_entry hfile).1, (find?_entry hfile).2, rfl⟩
    · cases h
  | openTemporary => exact ⟨"", rfl⟩
  | writeTemporary content => exact ⟨content, rfl, fun _ => rfl⟩
  | renameTemporary entry =>
    cases directory with
    | none => exact Or.inl ⟨⟨_, rfl⟩, rfl⟩
    | some checkout => exact Or.inr ⟨checkout, rfl, rfl⟩

/-- Digests of the URLs below. -/
def sha256Hex (url : String) : String :=
  if url = "https://example.com/a" then
    "2dce0a4c50441bfccfa9caf4b58c3cba6e06c420505dd829f0436de1aa44baac"
  else if url = "https://example.com/b" then
    "d7fe568b31ae0fb9ee8a1311409b521aeb6a1b50f459bdf15c6f4a3f29dde53b"
  else "b67d422a613047e3305b0e6ee377a787da94edb84b745d60b22d5ac1e7085b04"

def env : ArchiveEnv := { SaveThrows.archiveEnv with sha256Hex }

theorem fillsTemplate : env.FillsTemplate := by
  intro data
  simp only [env, SaveThrows.archiveEnv, if_true]

def article (title : String) : ExtractedArticle := { OneArticle.article with title }

def input (title sourceUrl : String) : ArticleFile where
  content := trimText (fillArticle (templateData 1767600000000 (article title) sourceUrl ["read"])) ++ "\n"
  filename := buildArchiveFilename env title 1767600000000
  sourceUrl

theorem input_produced (title sourceUrl : String) :
    Produced env (input title sourceUrl) (article title) where
  content := by
    refine ⟨1767600000000, ["read"], ?_⟩
    rw [renderArticleMarkdown, fillsTemplate]
    rfl
  filename := ⟨title, 1767600000000, rfl⟩

/-- What a save leaves behind. -/
def saved (w : World) (input : ArticleFile) : World :=
  ((save env input).exec (serve input.sourceUrl) w).1

theorem saved_reaches (w : World) (input : ArticleFile) :
    Prog.Reaches (learns input.sourceUrl) w (save env input) (saved w input)
      (some ((save env input).exec (serve input.sourceUrl) w).2) :=
  Prog.reaches_exec (serve_learns input.sourceUrl) (save env input) w

/-! ### One article -/

/-- The source of a sample article is found in its file. -/
theorem input_found {title sourceUrl : String} (htitle : ¬ OpensSourceUrl title.toList)
    (hurl : sourceUrl.toList.any isSeparator = false) :
    fileSourceUrl (input title sourceUrl).content = some (utf16Units sourceUrl) := by
  obtain ⟨archivedAt, tags, hrender⟩ := (input_produced title sourceUrl).content
  obtain ⟨body, hbody⟩ := render_content fillsTemplate hrender
  rcases fileSourceUrl_content hbody with ⟨hread, -⟩ | ⟨-, hopens | hseparator⟩
  · exact hread
  · exact absurd hopens htitle
  · rw [show (input title sourceUrl).sourceUrl = sourceUrl from rfl, hurl] at hseparator
    cases hseparator

theorem not_opensSourceUrl {title : String} (h : title.toList.length < 12) :
    ¬ OpensSourceUrl title.toList := by
  rintro ⟨c, -, hlies⟩
  have hlength := hlies.length_le
  simp only [sourceUrlKey, List.length_cons, List.length_nil] at hlength
  omega

/-- A source that no file is of is not found. -/
theorem findEntry_none {w : World} {s sourceUrl : String} {entries : List String}
    (h : ∀ entry ∈ entries, ∃ file, w.files.find? (·.entry = entry) = some file ∧
      fileSourceUrl file.content ≠ some (utf16Units sourceUrl)) :
    (findEntry sourceUrl entries).exec (serve s) w = (w, .ok none) := by
  induction entries with
  | nil => rfl
  | cons entry entries ih =>
    have hrest := ih fun other hother => h other (List.mem_cons_of_mem _ hother)
    obtain ⟨file, hfile, hother⟩ := h entry List.mem_cons_self
    rw [findEntry]
    split
    · exact hrest
    · rw [Prog.exec_call]
      simp only [serve_readFile, hfile, if_neg hother]
      exact hrest

/-- A save of an article that has no file, in a repository that is up to date. -/
theorem save_new {w : World} {input : ArticleFile}
    (hready : ensureRepository.exec (serve input.sourceUrl) w = (w, .ok false))
    (hsame : remoteBranchMatchesHead.exec (serve input.sourceUrl) w = (w, .ok true))
    (hnone : (findEntry input.sourceUrl (w.files.map SavedFile.entry)).exec (serve input.sourceUrl) w =
      (w, .ok none)) :
    (save env input).exec (serve input.sourceUrl) w =
      (saveNew env input).exec (serve input.sourceUrl) w := by
  have hfound : (findSourceUrl input.sourceUrl).exec (serve input.sourceUrl) w = (w, .ok none) := hnone
  simp [save, Prog.exec_andThen, hready, hsame, hfound]

/-- What `git status` is blank for. -/
def clean (files : List SavedFile) (history : History) (entry : String) : Bool :=
  files.all fun file => file.entry ≠ entry || (treeOf history).any fun committed =>
    committed.entry = entry && committed.content = file.content

section Served

variable {s : String} {remote : History} {temporary : String} {overwritten : List SavedFile}
  {history : History} {files : List SavedFile}

theorem status_exec (entry : String) (whole : Bool) :
    (git (.status entry)).exec (serve s) ⟨some ⟨.at history whole, files⟩, remote, temporary, overwritten⟩ =
      (⟨some ⟨.at history whole, files⟩, remote, temporary, overwritten⟩,
        .ok (if clean files history entry then "" else "?? " ++ entry ++ "\n")) := rfl

/-- Where the file is in the clone, its commit succeeds. -/
theorem commitFile_exec (file : SavedFile) (whole : Bool) (hfind : files.find? (·.entry = file.entry) = some file) :
    (commitFile file.entry).exec (serve s) ⟨some ⟨.at history whole, files⟩, remote, temporary, overwritten⟩ =
      (⟨some ⟨.at (history ++ [file]) whole, files⟩, remote, temporary, overwritten⟩, .ok ()) := by
  have hadd : (git (.add file.entry)).exec (serve s)
      ⟨some ⟨.at history whole, files⟩, remote, temporary, overwritten⟩ =
        (⟨some ⟨.at history whole, files⟩, remote, temporary, overwritten⟩, .ok "") := rfl
  have hcommit : (git (.commit file.entry)).exec (serve s)
      ⟨some ⟨.at history whole, files⟩, remote, temporary, overwritten⟩ =
        (⟨some ⟨.at (history ++ [file]) whole, files⟩, remote, temporary, overwritten⟩, .ok "") := by
    rw [show git (.commit file.entry) = runGit (.commit file.entry) 1 from rfl, runGit, Prog.exec_call]
    simp only [serve_commit, hfind]
    rfl
  simp [commitFile, Prog.exec_andThen, hadd, hcommit]

/-- Where the remote branch is behind, the push succeeds. -/
theorem push_exec (whole : Bool) (hopens : remote <+: history) :
    pushWithRebaseRetry.exec (serve s) ⟨some ⟨.at history whole, files⟩, remote, temporary, overwritten⟩ =
      (⟨some ⟨.at history whole, files⟩, history, temporary, overwritten⟩, .ok ()) := by
  have hpush : (runGit .push 1).exec (serve s)
      ⟨some ⟨.at history whole, files⟩, remote, temporary, overwritten⟩ =
        (⟨some ⟨.at history whole, files⟩, history, temporary, overwritten⟩, .ok "") := by
    rw [runGit, Prog.exec_call]
    simp only [serve_push, List.isPrefixOf_iff_prefix.mpr hopens, if_true]
    rfl
  rw [show pushWithRebaseRetry = pushAttempts 3 from rfl, pushAttempts, Prog.exec_bind, hpush]
  rfl

/-- A new file, which is not in the tree as it is, is committed and pushed. -/
theorem createFile_exec {input : ArticleFile} {filename : String} {whole : Bool}
    (hdirty : clean (put files ⟨filename, input.content, input.sourceUrl⟩) history filename = false)
    (hfind : (put files ⟨filename, input.content, input.sourceUrl⟩).find? (·.entry = filename) =
      some ⟨filename, input.content, input.sourceUrl⟩) :
    (createFile input filename).exec (serve input.sourceUrl)
        ⟨some ⟨.at history whole, files⟩, history, temporary, overwritten⟩ =
      (⟨some ⟨.at (history ++ [⟨filename, input.content, input.sourceUrl⟩]) whole,
          put files ⟨filename, input.content, input.sourceUrl⟩⟩,
        history ++ [⟨filename, input.content, input.sourceUrl⟩], input.content,
        overwritten ++ files.filter fun file =>
          file.entry = filename && file.sourceUrl ≠ input.sourceUrl⟩, .ok ⟨true, filename⟩) := by
  have hwrite (w : World) : (writeTemporary input.content).exec (serve input.sourceUrl) w =
      ({ w with temporary := input.content }, .ok ()) := rfl
  have hrename : serve input.sourceUrl
      ⟨some ⟨.at history whole, files⟩, history, input.content, overwritten⟩
        (.renameTemporary filename) =
      (World.rename ⟨some ⟨.at history whole, files⟩, history, input.content, overwritten⟩
        ⟨.at history whole, files⟩ filename input.sourceUrl, .ok ()) := rfl
  have hcommit : (commitAndPush filename).exec (serve input.sourceUrl)
      (World.rename ⟨some ⟨.at history whole, files⟩, history, input.content, overwritten⟩
        ⟨.at history whole, files⟩ filename input.sourceUrl) =
      (⟨some ⟨.at (history ++ [⟨filename, input.content, input.sourceUrl⟩]) whole,
          put files ⟨filename, input.content, input.sourceUrl⟩⟩,
        history ++ [⟨filename, input.content, input.sourceUrl⟩], input.content,
        overwritten ++ files.filter fun file =>
          file.entry = filename && file.sourceUrl ≠ input.sourceUrl⟩, .ok ()) := by
    have hblank : ¬ trimText ("?? " ++ filename ++ "\n") = "" := by
      rw [String.append_assoc]
      exact trimText_untracked _
    simp only [commitAndPush, World.rename, Prog.exec_andThen, status_exec, hdirty, Bool.false_eq_true,
      if_false, hblank]
    rw [commitFile_exec ⟨filename, input.content, input.sourceUrl⟩ whole hfind]
    simp only [push_exec whole (List.prefix_append _ _)]
  rw [createFile, Prog.exec_andThen, hwrite]
  simp only [Prog.exec_call, hrename, Prog.exec_andThen, hcommit, Prog.exec_ret]

end Served

theorem saveNew_exec (w : World) (input : ArticleFile) :
    (saveNew env input).exec (serve input.sourceUrl) w =
      (createFile input (if w.files.any (·.entry = input.filename) then
        suffixedName env input.filename input.sourceUrl else input.filename)).exec
          (serve input.sourceUrl) w := rfl

/-- The names of the files, and which of the URLs a line of the front matter can hold. -/
theorem sample_names :
    (buildArchiveFilename env "t" 1767600000000 = "20260105-t.md" ∧
      buildArchiveFilename env "u" 1767600000000 = "20260105-u.md" ∧
      buildArchiveFilename env "t d7fe568b" 1767600000000 = "20260105-t-d7fe568b.md" ∧
      suffixedName env "20260105-t.md" "https://example.com/b" = "20260105-t-d7fe568b.md") ∧
    (∀ url ∈ ["https://example.com/a", "https://example.com/b", "https://example.com/c"],
      url.toList.any isSeparator = false) ∧
    "https://example.com/a\u2028b".toList.any isSeparator = true := by
  decide +kernel

theorem url_plain {url : String}
    (h : url ∈ ["https://example.com/a", "https://example.com/b", "https://example.com/c"]) :
    url.toList.any isSeparator = false :=
  sample_names.2.1 url h

def first : ArticleFile := input "t" "https://example.com/a"

def firstFile : SavedFile := ⟨"20260105-t.md", first.content, first.sourceUrl⟩

def afterFirst : World := ⟨some ⟨.at [firstFile] true, [firstFile]⟩, [firstFile], first.content, []⟩

theorem first_found : fileSourceUrl first.content = some (utf16Units first.sourceUrl) :=
  input_found (not_opensSourceUrl (by decide)) (url_plain (by simp))

theorem save_first :
    (save env first).exec (serve first.sourceUrl) start = (afterFirst, .ok ⟨true, "20260105-t.md"⟩) :=
  rfl

theorem first_admissible : Admissible env start first (article "t") where
  title := not_opensSourceUrl (by decide)
  url := url_plain (by decide)
  whole := by
    rintro history ⟨checkout, whole, hdirectory, -⟩
    cases hdirectory
  names := ⟨fun ⟨_, h, _⟩ => (by cases h), fun ⟨_, h, _⟩ => (by cases h)⟩

/-- A source that the files are not of, as each of them shows. -/
theorem findEntry_new {w : World} {s sourceUrl : String}
    (hother : ∀ file ∈ w.files, fileSourceUrl file.content = some (utf16Units file.sourceUrl) ∧
      file.sourceUrl ≠ sourceUrl) :
    (findEntry sourceUrl (w.files.map SavedFile.entry)).exec (serve s) w = (w, .ok none) := by
  refine findEntry_none fun entry hentry => ?_
  obtain ⟨file, hfile, rfl⟩ := List.mem_map.mp hentry
  have hsome : (w.files.find? (·.entry = file.entry)).isSome :=
    List.find?_isSome.mpr ⟨file, hfile, by simp⟩
  obtain ⟨found, hfound⟩ := Option.isSome_iff_exists.mp hsome
  obtain ⟨hmem, -⟩ := find?_entry hfound
  refine ⟨found, hfound, ?_⟩
  rw [(hother found hmem).1, ne_eq, Option.some.injEq, utf16Units_injective.eq_iff]
  exact (hother found hmem).2

/-- The title of the first article again. -/
def third : ArticleFile := input "t" "https://example.com/b"

theorem third_found : fileSourceUrl third.content = some (utf16Units third.sourceUrl) :=
  input_found (not_opensSourceUrl (by decide)) (url_plain (by simp))

theorem third_name : third.filename = "20260105-t.md" := sample_names.1.1

theorem third_suffixed : suffixedName env third.filename third.sourceUrl = "20260105-t-d7fe568b.md" := by
  rw [third_name]
  exact sample_names.1.2.2.2

theorem third_admissible : Admissible env afterFirst third (article "t") where
  title := not_opensSourceUrl (by decide)
  url := url_plain (by decide)
  whole := by
    rintro history ⟨checkout, whole, hdirectory, hhead⟩
    cases hdirectory
    cases hhead
    exact ⟨_, rfl, rfl⟩
  names := by
    have hfree : FreeName env third [firstFile] := by
      intro _ file hfile hentry
      rw [List.mem_singleton.mp hfile, third_suffixed] at hentry
      exact absurd hentry (by decide)
    exact ⟨hfree, hfree⟩

theorem save_third :
    ((save env third).exec (serve third.sourceUrl) afterFirst).2 =
      .ok ⟨true, "20260105-t-d7fe568b.md"⟩ := by
  have htaken : afterFirst.files.any (·.entry = third.filename) = true := by
    rw [third_name]
    rfl
  have hnone := findEntry_new (w := afterFirst) (s := third.sourceUrl) fun file hfile => by
    rw [List.mem_singleton.mp hfile]
    exact ⟨first_found, (by decide : first.sourceUrl ≠ third.sourceUrl)⟩
  rw [save_new rfl rfl hnone, saveNew_exec, if_pos htaken, third_suffixed]
  exact congrArg Prod.snd (createFile_exec rfl rfl)

/-- Two articles of one title get files of their own. -/
theorem saves_safe_suffixed :
    afterFirst.overwritten = [] ∧ (saved afterFirst third).Delivered "https://example.com/b"
      "20260105-t-d7fe568b.md" := by
  have hreaches := saved_reaches start first
  rw [show saved start first = afterFirst from rfl] at hreaches
  have hrun : Relation.ReflTransGen (Step env) start afterFirst :=
    .single (.save (input_produced "t" "https://example.com/a") first_admissible hreaches)
  have hsafe := saves_safe env fillsTemplate afterFirst hrun
  refine ⟨hsafe.1.1, hsafe.2 third (article "t") _ ⟨true, "20260105-t-d7fe568b.md"⟩
    (input_produced _ _) third_admissible ?_⟩
  rw [← save_third]
  exact saved_reaches afterFirst third

/-! ### A name that ends like a suffix -/

/-- Its title ends in the digits that the suffix for the third one has. -/
def second : ArticleFile := input "t d7fe568b" "https://example.com/c"

def secondFile : SavedFile := ⟨"20260105-t-d7fe568b.md", second.content, second.sourceUrl⟩

def afterSecond : World :=
  ⟨some ⟨.at [firstFile, secondFile] true, [firstFile, secondFile]⟩, [firstFile, secondFile],
    second.content, []⟩

theorem second_found : fileSourceUrl second.content = some (utf16Units second.sourceUrl) :=
  input_found (not_opensSourceUrl (by decide)) (url_plain (by simp))

theorem save_second :
    (save env second).exec (serve second.sourceUrl) afterFirst =
      (afterSecond, .ok ⟨true, "20260105-t-d7fe568b.md"⟩) := by
  have hname : second.filename = "20260105-t-d7fe568b.md" := sample_names.1.2.2.1
  have hfree : ¬ afterFirst.files.any (·.entry = second.filename) = true := by
    rw [hname]
    decide
  have hnone := findEntry_new (w := afterFirst) (s := second.sourceUrl) fun file hfile => by
    rw [List.mem_singleton.mp hfile]
    exact ⟨first_found, (by decide : first.sourceUrl ≠ second.sourceUrl)⟩
  rw [save_new rfl rfl hnone, saveNew_exec, if_neg hfree, hname]
  exact createFile_exec rfl rfl

/-- The file of the third article, in the place of the second one's. -/
def thirdFile : SavedFile := ⟨"20260105-t-d7fe568b.md", third.content, third.sourceUrl⟩

def afterThird : World :=
  ⟨some ⟨.at [firstFile, secondFile, thirdFile] true, [firstFile, thirdFile]⟩,
    [firstFile, secondFile, thirdFile], third.content, [secondFile]⟩

/-- The third save writes over the file of the second source. -/
theorem save_third_overwrites :
    (save env third).exec (serve third.sourceUrl) afterSecond =
      (afterThird, .ok ⟨true, "20260105-t-d7fe568b.md"⟩) := by
  have htaken : afterSecond.files.any (·.entry = third.filename) = true := by
    rw [third_name]
    rfl
  have hnone := findEntry_new (w := afterSecond) (s := third.sourceUrl) fun file hfile => by
    rcases List.mem_cons.mp hfile with rfl | hfile
    · exact ⟨first_found, (by decide : first.sourceUrl ≠ third.sourceUrl)⟩
    · rw [List.mem_singleton.mp hfile]
      exact ⟨second_found, (by decide : second.sourceUrl ≠ third.sourceUrl)⟩
  have hcontent : secondFile.content ≠ thirdFile.content := by
    intro heq
    have hurls := second_found.symm.trans ((congrArg fileSourceUrl heq).trans third_found)
    rw [Option.some.injEq, utf16Units_injective.eq_iff] at hurls
    exact absurd hurls (by decide)
  have hdirty : clean [firstFile, thirdFile] [firstFile, secondFile] "20260105-t-d7fe568b.md" = false := by
    have htree : treeOf [firstFile, secondFile] = [firstFile, secondFile] := rfl
    have hentry : firstFile.entry ≠ "20260105-t-d7fe568b.md" := by decide
    have hsame : secondFile.entry = "20260105-t-d7fe568b.md" := rfl
    have hthird : thirdFile.entry = "20260105-t-d7fe568b.md" := rfl
    simp [clean, htree, hentry, hsame, hthird, hcontent]
  rw [save_new rfl rfl hnone, saveNew_exec, if_pos htaken, third_suffixed]
  exact createFile_exec hdirty rfl

theorem exec_reaches {w w' : World} {input : ArticleFile} {result : Except ArchiveError SavedArticle}
    (h : (save env input).exec (serve input.sourceUrl) w = (w', result)) :
    Prog.Reaches (learns input.sourceUrl) w (save env input) w' (some result) := by
  have hserved := saved_reaches w input
  rwa [saved, h] at hserved

/-- The third article has the title of the first one, and takes the place of the second one's file. -/
theorem third_overwrites :
    Produced env first (article "t") ∧ Produced env second (article "t d7fe568b") ∧
      Produced env third (article "t") ∧
      Prog.Reaches (learns first.sourceUrl) start (save env first) afterFirst
        (some (.ok ⟨true, "20260105-t.md"⟩)) ∧
      Prog.Reaches (learns second.sourceUrl) afterFirst (save env second) afterSecond
        (some (.ok ⟨true, "20260105-t-d7fe568b.md"⟩)) ∧
      Prog.Reaches (learns third.sourceUrl) afterSecond (save env third) afterThird
        (some (.ok ⟨true, "20260105-t-d7fe568b.md"⟩)) ∧
      afterThird.overwritten = [secondFile] ∧ secondFile.sourceUrl ∉ afterThird.files.map (·.sourceUrl) :=
  ⟨input_produced _ _, input_produced _ _, input_produced _ _, exec_reaches save_first,
    exec_reaches save_second, exec_reaches save_third_overwrites, rfl, by decide⟩

/-! ### A source with two files -/

/-- A version of an article whose URL has a line separator. -/
def hidden (title : String) : ArticleFile := input title "https://example.com/a\u2028b"

theorem hidden_unseen (title : String) : fileSourceUrl (hidden title).content = none := by
  obtain ⟨archivedAt, tags, hrender⟩ := (input_produced title "https://example.com/a\u2028b").content
  obtain ⟨body, hbody⟩ := render_content fillsTemplate hrender
  rcases fileSourceUrl_content hbody with ⟨-, -, hurl⟩ | ⟨hread, -⟩
  · have hfalse : "https://example.com/a\u2028b".toList.any isSeparator = false := hurl
    rw [sample_names.2.2] at hfalse
    cases hfalse
  · exact hread

def hiddenFile : SavedFile := ⟨"20260105-t.md", (hidden "t").content, (hidden "t").sourceUrl⟩

def otherFile : SavedFile := ⟨"20260105-u.md", (hidden "u").content, (hidden "u").sourceUrl⟩

def afterHidden : World :=
  ⟨some ⟨.at [hiddenFile] true, [hiddenFile]⟩, [hiddenFile], (hidden "t").content, []⟩

def afterOther : World :=
  ⟨some ⟨.at [hiddenFile, otherFile] true, [hiddenFile, otherFile]⟩, [hiddenFile, otherFile],
    (hidden "u").content, []⟩

theorem save_hidden :
    (save env (hidden "t")).exec (serve (hidden "t").sourceUrl) start =
      (afterHidden, .ok ⟨true, "20260105-t.md"⟩) := rfl

theorem save_other :
    (save env (hidden "u")).exec (serve (hidden "u").sourceUrl) afterHidden =
      (afterOther, .ok ⟨true, "20260105-u.md"⟩) := by
  have hnone : (findEntry (hidden "u").sourceUrl (afterHidden.files.map SavedFile.entry)).exec
      (serve (hidden "u").sourceUrl) afterHidden = (afterHidden, .ok none) := by
    refine findEntry_none fun entry hentry => ?_
    obtain rfl : entry = "20260105-t.md" := List.mem_singleton.mp hentry
    refine ⟨hiddenFile, rfl, ?_⟩
    rw [hiddenFile, hidden_unseen]
    exact fun h => by cases h
  have hname : (hidden "u").filename = "20260105-u.md" := sample_names.1.2.1
  have hfree : ¬ afterHidden.files.any (·.entry = (hidden "u").filename) = true := by
    rw [hname]
    decide
  rw [save_new rfl rfl hnone, saveNew_exec, if_neg hfree, hname]
  exact createFile_exec rfl rfl

/-- The lookup does not see the first version, so the second one gets another file. -/
theorem hidden_savedTwice :
    Prog.Reaches (learns (hidden "t").sourceUrl) start (save env (hidden "t")) afterHidden
        (some (.ok ⟨true, "20260105-t.md"⟩)) ∧
      Prog.Reaches (learns (hidden "u").sourceUrl) afterHidden (save env (hidden "u")) afterOther
        (some (.ok ⟨true, "20260105-u.md"⟩)) ∧
      ¬ (afterOther.files.map SavedFile.sourceUrl).Nodup :=
  ⟨exec_reaches save_hidden, exec_reaches save_other, by decide⟩

/-- `HEAD` is not read, and the clone that follows is cut off before it checks out a file. -/
def serveCut (s : String) (w : World) : (c : RepoCall) → World × c.Answer
  | .git .verifyHead => (w, .error ())
  | .git .clone =>
    match w.directory with
    | none => ({ w with directory := some ⟨.at w.remote false, []⟩ }, .error ())
    | some _ => (w, .error ())
  | c => serve s w c

/-- A repository whose push loses its answer does what is relied on, too. -/
theorem serveCut_learns (s : String) (w : World) (c : RepoCall) :
    learns s w c (serveCut s w c).2 (serveCut s w c).1 := by
  obtain ⟨directory, remote, temporary, overwritten⟩ := w
  cases c with
  | git command =>
    cases command with
    | verifyHead => exact ⟨rfl, fun stdout h => by cases h⟩
    | clone =>
      cases directory with
      | none =>
        exact Or.inl ⟨rfl, Or.inr ⟨rfl, _, .checkout [] (List.nil_sublist _), rfl⟩⟩
      | some checkout => exact Or.inl ⟨rfl, Or.inl rfl⟩
    | _ => exact serve_learns s _ _
  | _ => exact serve_learns s _ _

def afterCut : World := ⟨some ⟨.at [firstFile] false, []⟩, [firstFile], first.content, []⟩

theorem save_cut :
    (save env third).exec (serveCut third.sourceUrl) afterFirst =
      (afterCut, .error (gitFailed .clone)) := rfl

/-- The first article again, with another title. -/
def retitled : ArticleFile := input "u" "https://example.com/a"

def retitledFile : SavedFile := ⟨"20260105-u.md", retitled.content, retitled.sourceUrl⟩

def afterRetitled : World :=
  ⟨some ⟨.at [firstFile, retitledFile] false, [retitledFile]⟩, [firstFile, retitledFile],
    retitled.content, []⟩

theorem save_retitled :
    (save env retitled).exec (serve retitled.sourceUrl) afterCut =
      (afterRetitled, .ok ⟨true, "20260105-u.md"⟩) := by
  have hname : retitled.filename = "20260105-u.md" := sample_names.1.2.1
  have hfree : ¬ afterCut.files.any (·.entry = retitled.filename) = true := by decide
  rw [save_new rfl rfl rfl, saveNew_exec, if_neg hfree, hname]
  exact createFile_exec rfl rfl

/-- The first file is in the branch, but has not been checked out, so the source gets another one. -/
theorem cutClone_savedTwice :
    Prog.Reaches (learns third.sourceUrl) afterFirst (save env third) afterCut
        (some (.error (gitFailed .clone))) ∧
      Prog.Reaches (learns retitled.sourceUrl) afterCut (save env retitled) afterRetitled
        (some (.ok ⟨true, "20260105-u.md"⟩)) ∧
      ¬ ((treeOf afterRetitled.remote).map SavedFile.sourceUrl).Nodup := by
  have hcut := Prog.reaches_exec (serveCut_learns third.sourceUrl) (save env third) afterFirst
  rw [save_cut] at hcut
  exact ⟨hcut, exec_reaches save_retitled, by decide⟩

end Sample

end InboxServer.Git
