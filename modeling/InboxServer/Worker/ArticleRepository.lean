import InboxServer.Domain.JsonLiteral
import InboxServer.Worker.ArticleArchive

/-!
# The repository of articles

What `GitArticleRepository` of `apps/worker/src/article-archive.ts` reads off the files that it
holds: `#findSourceUrl` and `#collisionSafeFilename`. Git itself is left out.
-/

namespace InboxServer

/-- What `\s*(.+)$` captures. -/
def captureValue (text : List Char) : Option (List Char) :=
  match text.dropWhile isSpaceChar with
  | c :: rest => some ((c :: rest).takeWhile fun c => !isLineTerminator c)
  -- `\s*` gives back what it took, up to a character that `.` matches
  | [] => (text.reverse.find? fun c => !isLineTerminator c).map fun c => [c]

/-- `source_url:` -/
def sourceUrlKey : List Char := ['s', 'o', 'u', 'r', 'c', 'e', '_', 'u', 'r', 'l', ':']

/-- `/^source_url:\s*(.+)$/m` at the start of a text; `^` and `$` stand at line terminators. -/
def matchHere (lineStart : Bool) (text : List Char) : Option (List Char) :=
  if lineStart && sourceUrlKey.isPrefixOf text then captureValue (text.drop sourceUrlKey.length)
  else none

/-- `/^source_url:\s*(.+)$/m.exec(content)`: what the leftmost match captures. -/
def execSourceUrl (lineStart : Bool) : List Char → Option (List Char)
  | [] => matchHere lineStart []
  | c :: rest => (matchHere lineStart (c :: rest)).or (execSourceUrl (isLineTerminator c) rest)

/-- `JSON.parse(match[1])`, where there is a match and its capture is a string. -/
def fileSourceUrl (content : String) : Option (List Nat) :=
  (execSourceUrl true content.toList).bind Json.parseString

def isMarkdownName (entry : String) : Bool := ".md".toList.isSuffixOf entry.toList

/-- A file of the directory of the articles. -/
structure DirectoryFile where
  entry : String
  content : String

/-- The directory, in the order of `readdir`. -/
structure ArticlesDir where
  files : List DirectoryFile
  nodup : (files.map DirectoryFile.entry).Nodup

def DirectoryFile.hasSourceUrl (sourceUrl : String) (file : DirectoryFile) : Bool :=
  isMarkdownName file.entry && fileSourceUrl file.content = some (utf16Units sourceUrl)

/-- `#findSourceUrl(sourceUrl)` -/
def ArticlesDir.findSourceUrl (directory : ArticlesDir) (sourceUrl : String) : Option String :=
  (directory.files.find? (DirectoryFile.hasSourceUrl sourceUrl)).map DirectoryFile.entry

/-- `#collisionSafeFilename(directory, filename, sourceUrl)` -/
def collisionSafeFilename (env : ArchiveEnv) (directory : ArticlesDir) (filename sourceUrl : String) :
    String :=
  if directory.files.any (·.entry = filename) then
    String.ofList (filename.toList.take (filename.length - 3)) ++ "-" ++
      String.ofList ((env.sha256Hex sourceUrl).toList.take 8) ++ ".md"
  else filename

/-! ## Names -/

theorem isMarkdownName_append (name : String) : isMarkdownName (name ++ ".md") = true := by
  unfold isMarkdownName
  rw [List.isSuffixOf_iff_suffix, String.toList_append]
  exact List.suffix_append _ _

theorem buildArchiveFilename_isMarkdown (env : ArchiveEnv) (title : String) (archivedAt : Instant) :
    isMarkdownName (buildArchiveFilename env title archivedAt) = true := isMarkdownName_append _

end InboxServer
