import InboxServer.Worker.ArticleRepository

/-!
# Names of archived files

`buildArchiveFilename` of `apps/worker/src/article-archive.ts` for any JavaScript text, which may hold
surrogates without a partner. The normal form NFKC, the classes of letters and numbers and the dates of
the zone `Asia/Shanghai` are parameters.
-/

namespace InboxServer

/-- A code point of a text, as `for (const character of text)` steps through it. -/
inductive CodePoint where
  | char (c : Char)
  /-- A surrogate without its partner. -/
  | lone (unit : Nat) (h : 0xd800 ≤ unit ∧ unit < 0xe000)

/-- `[\p{L}\p{N}]`; surrogates are in neither class. -/
def CodePoint.letterOrNumber (isLetterOrNumber : Char → Bool) : CodePoint → Option Char
  | .char c => if isLetterOrNumber c then some c else none
  | .lone .. => none

structure NameEnv where
  /-- `title.normalize("NFKC")` -/
  normalizeNfkc : List CodePoint → List CodePoint
  isLetterOrNumber : Char → Bool
  /-- The date of an instant in the zone `Asia/Shanghai`. -/
  shanghaiDate : Instant → CivilDate

/-- `title.replace(/[^\p{L}\p{N}]+/gu, "-")`; `inRun` says that the run has its hyphen. -/
def hyphenateText (isLetterOrNumber : Char → Bool) (inRun : Bool) : List CodePoint → List Char
  | [] => []
  | p :: text =>
    match p.letterOrNumber isLetterOrNumber with
    | some c => c :: hyphenateText isLetterOrNumber false text
    | none =>
      if inRun then hyphenateText isLetterOrNumber true text
      else '-' :: hyphenateText isLetterOrNumber true text

/-- `text.replace(/^-+|-+$/g, "")` -/
def stripHyphens (text : List Char) : List Char :=
  ((text.dropWhile (· = '-')).reverse.dropWhile (· = '-')).reverse

/-- The title with hyphens in it. -/
def normalizedTitle (env : NameEnv) (title : List CodePoint) : List Char :=
  let stripped := stripHyphens (hyphenateText env.isLetterOrNumber false (env.normalizeNfkc title))
  if stripped = [] then "untitled".toList else stripped

/-- Year, month and day, as `en-CA` writes them, without what stands between them. -/
def dateText (date : CivilDate) : String :=
  toString (if 0 < date.year then date.year else 1 - date.year).toNat ++ pad2 date.month.toNat ++
    pad2 date.day.toNat

/-- `safeTitle`, of the date and the normalized title. -/
def safeTitle (date : String) (title : List Char) : List Char :=
  takeBytes (171 - (date ++ "-.md").utf8ByteSize) title

/-- `buildArchiveFilename(title, archivedAt)` -/
def archiveFilename (env : NameEnv) (title : List CodePoint) (archivedAt : Instant) : String :=
  let date := dateText (env.shanghaiDate archivedAt)
  date ++ "-" ++ String.ofList (safeTitle date (normalizedTitle env title)) ++ ".md"

/-! ## Texts without lone surrogates -/

theorem hyphenateText_char (isLetterOrNumber : Char → Bool) (inRun : Bool) (text : List Char) :
    hyphenateText isLetterOrNumber inRun (text.map .char) = hyphenate isLetterOrNumber inRun text := by
  induction text generalizing inRun with
  | nil => rfl
  | cons c text ih =>
    simp only [List.map_cons, hyphenateText, CodePoint.letterOrNumber, hyphenate]
    cases isLetterOrNumber c <;> cases inRun <;> simp [ih]

/-- On a text of characters the name is the one that the archiver builds. -/
theorem archiveFilename_eq (archive : ArchiveEnv) (env : NameEnv) (title : String) (archivedAt : Instant)
    (hclass : env.isLetterOrNumber = archive.isLetterOrNumber)
    (hdate : env.shanghaiDate archivedAt = civilDate (shanghaiDay archivedAt))
    (hnormal : env.normalizeNfkc (title.toList.map .char) =
      (archive.normalizeNfkc title).toList.map .char) :
    archiveFilename env (title.toList.map .char) archivedAt =
      buildArchiveFilename archive title archivedAt := by
  unfold archiveFilename buildArchiveFilename normalizedTitle safeTitle dateText stripHyphens
  rw [hnormal, hyphenateText_char, hclass, hdate]

end InboxServer
