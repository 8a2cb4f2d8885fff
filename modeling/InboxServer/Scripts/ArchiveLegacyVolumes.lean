import InboxServer.Infra.FileTree

/-!
# Archives of the legacy volumes

`_validate_tar` of `scripts/archive_legacy_volumes.py`, for the members that `tarfile` reads, and what
it means to extract them.
-/

namespace InboxServer.Volumes

open Infra

inductive MemberKind where
  /-- `isfile()` -/
  | file
  /-- `isdir()` -/
  | dir
  /-- `issym()` -/
  | sym (linkname : String)
  /-- `islnk()` -/
  | lnk (linkname : String)
  | other
  deriving DecidableEq

structure TarMember where
  name : String
  kind : MemberKind
  deriving DecidableEq

/-- The parts of a `PurePosixPath` that is not absolute. -/
abbrev PathParts := List String

/-- `PurePosixPath(member.name)`, if it is not absolute. -/
def TarMember.path (member : TarMember) : PathParts := pathNames member.name

/-- `_safe_member_path(name)` -/
def safeMemberPath (name : String) : Except String PathParts :=
  if isAbsolutePath name || ".." ∈ pathNames name then .error "unsafe tar member path"
  else .ok (pathNames name)

/-- The names that `posixpath.normpath` keeps of a path that is not absolute, the last one first. -/
def normNames : List String → List String → List String
  | kept, [] => kept
  | kept, name :: names =>
    if name ≠ ".." || kept = [] || kept.head? = some ".." then normNames (name :: kept) names
    else normNames kept.tail names

/-- `path.parents` -/
def parentsOf (path : PathParts) : List PathParts := path.inits.dropLast

/-- What the loop has seen. -/
structure Seen where
  paths : List PathParts
  symlinks : List PathParts

/-- A link whose target is not in the archive. -/
def checkLink (base : PathParts) (linkname : String) : Except String Unit :=
  if isAbsolutePath linkname then .error "unsafe tar link target"
  else if ".." ∈ normNames [] (base ++ pathNames linkname) then .error "unsafe tar link target"
  else .ok ()

/-- One round of the loop. -/
def checkMember (seen : Seen) (member : TarMember) : Except String Seen := do
  let path ← safeMemberPath member.name
  if path ∈ seen.paths then .error "duplicate tar member path"
  else
    let paths := path :: seen.paths
    match member.kind with
    | .sym linkname =>
      checkLink path.dropLast linkname
      .ok { paths, symlinks := path :: seen.symlinks }
    | .lnk linkname =>
      checkLink [] linkname
      .ok { paths, symlinks := seen.symlinks }
    | .file | .dir => .ok { paths, symlinks := seen.symlinks }
    | .other => .error "unsupported tar member type"

/-- `_validate_tar(content)` -/
def validateTar (members : List TarMember) : Except String Unit := do
  let seen ← members.foldlM checkMember { paths := [], symlinks := [] }
  if seen.paths.any fun path => (parentsOf path).any (· ∈ seen.symlinks) then
    .error "tar member traverses a symlink"
  else .ok ()

/-! ## Extraction -/

/-- A member is put at its place in the directory `parent`. -/
def placeMember (links : Nat) (root : Location) (disk : Disk) (parent : Location) (name : String)
    (kind : MemberKind) : Disk :=
  let location := if name = ".." then parent.dropLast else parent ++ [name]
  match kind with
  | .file => disk.writeFile links parent name
  | .dir => disk.makeDir location
  | .sym linkname => disk.replace location (.symlink linkname)
  | .lnk linkname =>
    match disk.locateEntry links (Disk.linkBase root linkname) (pathNames linkname) with
    | some source => disk.link source location
    | none => disk
  | .other => disk

/-- A member is extracted into `root`; one that is `.` is the directory itself. -/
def extractMember (links : Nat) (root : Location) (disk : Disk) (member : TarMember) : Disk :=
  let base := if isAbsolutePath member.name then [] else root
  match (pathNames member.name).getLast? with
  | none => if member.kind = .dir then disk.makeDir base else disk
  | some name =>
    match Disk.makeParents links disk base (pathNames member.name).dropLast with
    | (disk, none) => disk
    | (disk, some parent) => placeMember links root disk parent name member.kind

/-- The members are extracted in order. -/
def extractAll (links : Nat) (root : Location) (disk : Disk) (members : List TarMember) : Disk :=
  members.foldl (extractMember links root) disk

end InboxServer.Volumes
