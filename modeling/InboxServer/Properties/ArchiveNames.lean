import InboxServer.Worker.ArchiveNames
import InboxServer.Worker.ImaMirror
import InboxServer.Properties.LegacyExport

/-!
# The names of archived files are valid

* `archiveFilename_valid` — the name of any title: its date, its characters, its length in bytes, and
  what the IMA mirror reads off it, also with the suffix of a collision
-/

namespace InboxServer

/-! ## Titles -/

/-- Not two hyphens next to each other. -/
def NotBothHyphens (a b : Char) : Prop := ¬ (a = '-' ∧ b = '-')

/-- A path separator, a dot, a blank or a control character. -/
def UnsafeInName (c : Char) : Prop :=
  c = '/' ∨ c = '\\' ∨ c = '.' ∨ isSpaceChar c = true ∨ c.toNat < 0x20 ∨
    (0x7f ≤ c.toNat ∧ c.toNat < 0xa0)

/-- What the classes of letters and numbers are relied on for. -/
structure LetterClass (isLetterOrNumber : Char → Bool) : Prop where
  hyphen : isLetterOrNumber '-' = false
  ascii : ∀ c, c.isAlpha = true → isLetterOrNumber c = true
  notUnsafe : ∀ c, UnsafeInName c → isLetterOrNumber c = false

section Titles

variable {isLetterOrNumber : Char → Bool}

/-- What is left of a title are letters, numbers and hyphens. -/
theorem hyphenateText_chars {inRun : Bool} {text : List CodePoint} :
    ∀ c ∈ hyphenateText isLetterOrNumber inRun text, isLetterOrNumber c = true ∨ c = '-' := by
  induction text generalizing inRun with
  | nil => simp [hyphenateText]
  | cons p text ih =>
    intro c hc
    rw [hyphenateText] at hc
    cases hp : p.letterOrNumber isLetterOrNumber with
    | some d =>
      have hd : isLetterOrNumber d = true := by
        cases p with
        | lone unit h => cases hp
        | char e =>
          rw [CodePoint.letterOrNumber] at hp
          split at hp
          · next he => exact Option.some.inj hp ▸ he
          · cases hp
      rw [hp] at hc
      rcases List.mem_cons.mp hc with rfl | hc
      · exact Or.inl hd
      · exact ih c hc
    | none =>
      rw [hp] at hc
      cases inRun with
      | true => exact ih c hc
      | false =>
        rcases List.mem_cons.mp hc with rfl | hc
        · exact Or.inr rfl
        · exact ih c hc

/-- A run of other characters leaves one hyphen; inside of it there is none. -/
theorem hyphenateText_chain (hclass : isLetterOrNumber '-' = false) {inRun : Bool}
    {text : List CodePoint} :
    (hyphenateText isLetterOrNumber inRun text).IsChain NotBothHyphens ∧
      (inRun = true → (hyphenateText isLetterOrNumber inRun text).head? ≠ some '-') := by
  induction text generalizing inRun with
  | nil => exact ⟨List.IsChain.nil, fun _ => by simp [hyphenateText]⟩
  | cons p text ih =>
    rw [hyphenateText]
    cases hp : p.letterOrNumber isLetterOrNumber with
    | some d =>
      have hd : d ≠ '-' := by
        rintro rfl
        cases p with
        | lone unit h => cases hp
        | char e =>
          rw [CodePoint.letterOrNumber] at hp
          split at hp
          · next he =>
            rw [Option.some.inj hp, hclass] at he
            cases he
          · cases hp
      refine ⟨List.isChain_cons.mpr ⟨fun c _ hboth => hd hboth.1, ih.1⟩, fun _ => ?_⟩
      simpa using hd
    | none =>
      cases inRun with
      | true => exact ih
      | false =>
        refine ⟨List.isChain_cons.mpr ⟨fun c hc hboth => ?_, ih.1⟩, fun h => by cases h⟩
        rw [hboth.2] at hc
        exact ih.2 rfl hc

/-- A part of a name that is a title. -/
structure ValidTitle (isLetterOrNumber : Char → Bool) (title : List Char) : Prop where
  nonempty : title ≠ []
  chars : ∀ c ∈ title, isLetterOrNumber c = true ∨ c = '-'
  head : title.head? ≠ some '-'
  chain : title.IsChain NotBothHyphens

theorem ValidTitle.safe {title : List Char} (h : ValidTitle isLetterOrNumber title)
    (hclass : LetterClass isLetterOrNumber) {c : Char} (hc : c ∈ title) : ¬ UnsafeInName c := by
  intro hunsafe
  rcases h.chars c hc with hletter | rfl
  · rw [hclass.notUnsafe c hunsafe] at hletter
    cases hletter
  · rcases hunsafe with h | h | h | h | h | h <;> revert h <;> decide

theorem not_isLineTerminator {c : Char} (h : ¬ UnsafeInName c) : isLineTerminator c = false := by
  rw [Bool.eq_false_iff]
  intro hterminator
  refine h (Or.inr (Or.inr (Or.inr (Or.inl ?_))))
  simp only [isLineTerminator, List.mem_cons, List.not_mem_nil, or_false, decide_eq_true_eq]
    at hterminator
  rcases hterminator with rfl | rfl | rfl | rfl <;> decide

theorem head?_of_begins {α : Type*} {l l' : List α} (h : l <+: l') (hne : l ≠ []) :
    l.head? = l'.head? := by
  obtain ⟨rest, rfl⟩ := h
  rcases l with _ | ⟨a, l⟩
  · exact absurd rfl hne
  · rfl

theorem isChain_part {α : Type*} {r : α → α → Prop} {l part : List α} (h : l.IsChain r)
    (hpart : part <:+: l) : part.IsChain r := by
  obtain ⟨before, after, rfl⟩ := hpart
  exact (List.isChain_append.mp (List.isChain_append.mp h).1).2.1

theorem ValidTitle.begins {title part : List Char} (h : ValidTitle isLetterOrNumber title)
    (hopens : part <+: title) (hne : part ≠ []) : ValidTitle isLetterOrNumber part where
  nonempty := hne
  chars c hc := h.chars c (hopens.subset hc)
  head := by
    rw [head?_of_begins hopens hne]
    exact h.head
  chain := isChain_part h.chain hopens.isInfix

theorem prefix_stripHyphens (text : List Char) :
    stripHyphens text <+: text.dropWhile (· = '-') := by
  unfold stripHyphens
  rw [← List.reverse_suffix, List.reverse_reverse]
  exact List.dropWhile_suffix _

theorem dropWhile_head (text : List Char) : (text.dropWhile (· = '-')).head? ≠ some '-' := by
  intro h
  have := List.head?_dropWhile_not (· = '-') text
  rw [h] at this
  simp at this

/-- Every title has a valid normal form. -/
theorem normalizedTitle_valid {env : NameEnv} (hclass : LetterClass env.isLetterOrNumber)
    (title : List CodePoint) :
    ValidTitle env.isLetterOrNumber (normalizedTitle env title) := by
  unfold normalizedTitle
  dsimp only
  split
  · have hletters : "untitled".toList.all Char.isAlpha = true := by decide +kernel
    refine ⟨by simp, fun c hc => ?_, by simp, by simp [NotBothHyphens]⟩
    exact Or.inl (hclass.ascii c (List.all_eq_true.mp hletters c hc))
  · next hne =>
    have hopens := prefix_stripHyphens
      (hyphenateText env.isLetterOrNumber false (env.normalizeNfkc title))
    have hsuffix : (hyphenateText env.isLetterOrNumber false (env.normalizeNfkc title)).dropWhile
        (· = '-') <:+ hyphenateText env.isLetterOrNumber false (env.normalizeNfkc title) :=
      List.dropWhile_suffix _
    refine ⟨hne, fun c hc => hyphenateText_chars c (hsuffix.subset (hopens.subset hc)), ?_, ?_⟩
    · rw [head?_of_begins hopens hne]
      exact dropWhile_head _
    · exact isChain_part (hyphenateText_chain hclass.hyphen).1 (hopens.isInfix.trans hsuffix.isInfix)

end Titles

/-! ## Bytes -/

theorem utf8ByteSize_ofList (text : List Char) :
    (String.ofList text).utf8ByteSize = (text.map Char.utf8Size).sum := by
  induction text with
  | nil => rfl
  | cons c text ih =>
    rw [← List.singleton_append, String.ofList_append, String.utf8ByteSize_append, ih]
    simp

theorem prefix_takeBytes (n : Nat) (text : List Char) : takeBytes n text <+: text := by
  induction text generalizing n with
  | nil => exact List.prefix_rfl
  | cons c text ih =>
    rw [takeBytes]
    split
    · exact List.cons_prefix_cons.mpr ⟨rfl, ih _⟩
    · exact List.nil_prefix

/-- What is cut off to a size has at most that size. -/
theorem takeBytes_size (n : Nat) (text : List Char) : ((takeBytes n text).map Char.utf8Size).sum ≤ n := by
  induction text generalizing n with
  | nil => simp [takeBytes]
  | cons c text ih =>
    rw [takeBytes]
    split
    · have := ih (n - c.utf8Size)
      rw [List.map_cons, List.sum_cons]
      omega
    · exact Nat.zero_le _

theorem takeBytes_ne_nil {n : Nat} {text : List Char} (hn : 4 ≤ n) (h : text ≠ []) :
    takeBytes n text ≠ [] := by
  rcases text with _ | ⟨c, text⟩
  · exact absurd rfl h
  · rw [takeBytes, if_pos (le_trans c.utf8Size_le_four hn)]
    exact List.cons_ne_nil _ _

/-! ## Dates -/

/-- A date that an archive is made on, with a year of four digits. -/
structure FourDigitDate (date : CivilDate) : Prop where
  year : 1000 ≤ date.year ∧ date.year ≤ 9999
  month : 1 ≤ date.month ∧ date.month ≤ 12
  day : 1 ≤ date.day ∧ date.day ≤ 31

theorem length_toString_year {n : Nat} (h : 1000 ≤ n ∧ n ≤ 9999) : (toString n).toList.length = 4 := by
  have hle : n.repr.length ≤ 4 := (Nat.length_repr_le_iff (by decide)).mpr (by omega)
  have hlt : ¬ n.repr.length ≤ 3 := fun hle =>
    absurd ((Nat.length_repr_le_iff (by decide)).mp hle) (by omega)
  rw [String.length_toList]
  change n.repr.length = 4
  omega

/-- A number below 100 is padded to two digits. -/
theorem length_pad2 {n : Nat} (h : n < 100) : (pad2 n).toList.length = 2 := by
  have hle : n.repr.length ≤ 2 := (Nat.length_repr_le_iff (by decide)).mpr (by omega)
  have hpos : 0 < n.repr.length := Nat.length_repr_pos
  have hone : n.repr.length ≤ 1 ↔ n < 10 ^ 1 := Nat.length_repr_le_iff (by decide)
  unfold pad2
  split
  · rw [String.length_toList, String.length_append]
    change 1 + n.repr.length = 2
    omega
  · rw [String.length_toList]
    change n.repr.length = 2
    omega

/-- Year and month, as the folders of the mirror are named. -/
def monthText (date : CivilDate) : String := toString date.year.toNat ++ pad2 date.month.toNat

section Dates

variable {date : CivilDate} (h : FourDigitDate date)

include h

theorem dateText_eq : dateText date = monthText date ++ pad2 date.day.toNat := by
  have hyear := h.year
  unfold dateText monthText
  rw [if_pos (by omega)]

theorem length_monthText : (monthText date).toList.length = 6 := by
  have hyear := h.year
  have hmonth := h.month
  unfold monthText
  rw [String.toList_append, List.length_append, length_toString_year (by omega),
    length_pad2 (by omega)]

theorem length_dateText : (dateText date).toList.length = 8 := by
  have hday := h.day
  rw [dateText_eq h, String.toList_append, List.length_append, length_monthText h,
    length_pad2 (by omega)]

theorem take_dateText : (dateText date).toList.take 6 = (monthText date).toList := by
  rw [dateText_eq h, String.toList_append, List.take_left' (length_monthText h)]

end Dates

theorem isDigit_of_mem_dateText {date : CivilDate} {c : Char} (hc : c ∈ (dateText date).toList) :
    c.isDigit = true := by
  simp only [dateText, String.toList_append, List.mem_append] at hc
  rcases hc with (hyear | hmonth) | hday
  · exact isDigit_of_mem_toString hyear
  · exact Legacy.isDigit_of_mem_pad2 hmonth
  · exact Legacy.isDigit_of_mem_pad2 hday

/-! ## Names -/

/-- An ASCII text has as many bytes as characters. -/
theorem utf8ByteSize_ascii {text : List Char} (h : ∀ c ∈ text, c.toNat < 128) :
    (String.ofList text).utf8ByteSize = text.length := by
  rw [utf8ByteSize_ofList]
  induction text with
  | nil => rfl
  | cons c text ih =>
    have hone : c.utf8Size = 1 := by
      rw [Char.utf8Size_eq_one_iff, UInt32.le_iff_toNat_le]
      have := h c (List.mem_cons_self ..)
      exact Nat.le_of_lt_succ this
    rw [List.map_cons, List.sum_cons, ih fun d hd => h d (List.mem_cons_of_mem _ hd), hone,
      List.length_cons]
    omega

theorem isDigit_lt {c : Char} (h : c.isDigit = true) : c.toNat < 128 := by
  have hle : c.toNat ≤ 57 := (Char.isDigit_iff_toNat.mp h).2
  omega

/-- A digit of `createHash("sha256").digest("hex")`. -/
def isHexDigit (c : Char) : Bool := c.isDigit || c ∈ ['a', 'b', 'c', 'd', 'e', 'f']

theorem isHexDigit_lt {c : Char} (h : isHexDigit c = true) : c.toNat < 128 := by
  rcases Bool.or_eq_true_iff.mp h with hdigit | hletter
  · exact isDigit_lt hdigit
  · simp only [List.mem_cons, List.not_mem_nil, or_false, decide_eq_true_eq] at hletter
    rcases hletter with rfl | rfl | rfl | rfl | rfl | rfl <;> decide

theorem isHexDigit_not_terminator {c : Char} (h : isHexDigit c = true) :
    isLineTerminator c = false := by
  rw [Bool.eq_false_iff]
  intro hterminator
  simp only [isLineTerminator, List.mem_cons, List.not_mem_nil, or_false, decide_eq_true_eq]
    at hterminator
  rcases hterminator with rfl | rfl | rfl | rfl <;> revert h <;> decide

/-- What the mirror reads off a name that starts with eight digits and a hyphen. -/
theorem buildImaLocation_ok {filename : String} {date rest : List Char}
    (heq : filename.toList = date ++ '-' :: rest) (hlength : date.length = 8)
    (hdigits : ∀ c ∈ date, c.isDigit = true) (hne : rest ≠ [])
    (hrest : ∀ c ∈ rest, isLineTerminator c = false) :
    Ima.buildImaLocation filename =
      .ok { filename := String.ofList rest, month := String.ofList (date.take 6) } := by
  have htake : filename.toList.take 8 = date := by rw [heq, List.take_left' hlength]
  have hdrop : filename.toList.drop 8 = '-' :: rest := by rw [heq, List.drop_left' hlength]
  have hall : date.all Char.isDigit = true := List.all_eq_true.mpr hdigits
  have hlines : (rest.all fun c => !isLineTerminator c) = true :=
    List.all_eq_true.mpr fun c hc => by simp [hrest c hc]
  unfold Ima.buildImaLocation
  dsimp only
  rw [hdrop, htake]
  simp [hlength, hall, hlines, hne]

section Names

variable {env : NameEnv} {archivedAt : Instant}

/-- The name without `.md`. -/
def archiveStem (env : NameEnv) (title : List CodePoint) (archivedAt : Instant) : List Char :=
  (dateText (env.shanghaiDate archivedAt)).toList ++
    '-' :: safeTitle (dateText (env.shanghaiDate archivedAt)) (normalizedTitle env title)

theorem archiveFilename_toList (title : List CodePoint) :
    (archiveFilename env title archivedAt).toList =
      archiveStem env title archivedAt ++ ['.', 'm', 'd'] := by
  unfold archiveFilename archiveStem
  simp

/-- A title leaves 159 bytes for its part of the name. -/
theorem safeTitle_size {date : CivilDate} (hdate : FourDigitDate date) (title : List Char) :
    ((safeTitle (dateText date) title).map Char.utf8Size).sum ≤ 159 ∧
      (title ≠ [] → safeTitle (dateText date) title ≠ []) := by
  have hascii : (dateText date).utf8ByteSize = 8 := by
    rw [← String.ofList_toList (s := dateText date),
      utf8ByteSize_ascii fun c hc => isDigit_lt (isDigit_of_mem_dateText hc), length_dateText hdate]
  have hsize : (dateText date ++ "-.md").utf8ByteSize = 12 := by
    rw [String.utf8ByteSize_append, hascii]
    rfl
  unfold safeTitle
  rw [hsize]
  exact ⟨takeBytes_size _ _, takeBytes_ne_nil (by decide)⟩

/-- The stem of a name has at most 168 bytes. -/
theorem archiveStem_size (hdate : FourDigitDate (env.shanghaiDate archivedAt))
    (title : List CodePoint) :
    (String.ofList (archiveStem env title archivedAt)).utf8ByteSize ≤ 168 := by
  have hascii : ((dateText (env.shanghaiDate archivedAt)).toList.map Char.utf8Size).sum = 8 := by
    rw [← utf8ByteSize_ofList,
      utf8ByteSize_ascii fun c hc => isDigit_lt (isDigit_of_mem_dateText hc), length_dateText hdate]
  have htitle := (safeTitle_size hdate (normalizedTitle env title)).1
  have hhyphen : Char.utf8Size '-' = 1 := rfl
  rw [utf8ByteSize_ofList, archiveStem, List.map_append, List.sum_append, List.map_cons,
    List.sum_cons, hascii, hhyphen]
  omega

theorem md_ascii : ∀ c ∈ ['.', 'm', 'd'], c.toNat < 128 := by
  intro c hc
  simp only [List.mem_cons, List.not_mem_nil, or_false] at hc
  rcases hc with rfl | rfl | rfl <;> decide

theorem md_lines : ∀ c ∈ ['.', 'm', 'd'], isLineTerminator c = false := by
  intro c hc
  simp only [List.mem_cons, List.not_mem_nil, or_false] at hc
  rcases hc with rfl | rfl | rfl <;> decide

/-- A name with a title, maybe with more after it. -/
structure MirroredName (date : CivilDate) (name : String) : Prop where
  bytes : name.utf8ByteSize ≤ 180
  location : ∃ rest, Ima.buildImaLocation name = .ok { filename := rest, month := monthText date }

/-- Whatever stands behind the title of a name, the mirror finds the month in it. -/
theorem archiveStem_mirrored (hclass : LetterClass env.isLetterOrNumber)
    (hdate : FourDigitDate (env.shanghaiDate archivedAt)) (title : List CodePoint) {name : String}
    {rest : List Char} (heq : name.toList = archiveStem env title archivedAt ++ rest)
    (hlength : rest.length ≤ 12) (hascii : ∀ c ∈ rest, c.toNat < 128)
    (hlines : ∀ c ∈ rest, isLineTerminator c = false) :
    MirroredName (env.shanghaiDate archivedAt) name := by
  have hvalid := normalizedTitle_valid hclass title
  have hsafe : ValidTitle env.isLetterOrNumber (safeTitle (dateText (env.shanghaiDate archivedAt))
      (normalizedTitle env title)) :=
    hvalid.begins (prefix_takeBytes _ _) ((safeTitle_size hdate _).2 hvalid.nonempty)
  refine ⟨?_, ?_⟩
  · have hstem := archiveStem_size hdate title
    rw [← String.ofList_toList (s := name), heq, String.ofList_append, String.utf8ByteSize_append,
      utf8ByteSize_ascii hascii]
    omega
  · rw [archiveStem, List.append_assoc, List.cons_append] at heq
    have hok := buildImaLocation_ok heq (length_dateText hdate)
      (fun c hc => isDigit_of_mem_dateText hc) (by simp [hsafe.nonempty]) fun c hc => by
        rcases List.mem_append.mp hc with htitle | hrest
        · exact not_isLineTerminator (hsafe.safe hclass htitle)
        · exact hlines c hrest
    rw [take_dateText hdate, String.ofList_toList] at hok
    exact ⟨_, hok⟩

variable (env archivedAt) in
/--
The name of a file is the Shanghai date, a hyphen and the part of the title that fits: letters, numbers
and single hyphens, at most 171 bytes in all. With the suffix for a collision or without it, it has at
most 180 bytes and the mirror files it under the same month.
-/
theorem archiveFilename_valid (archive : ArchiveEnv) (directory : ArticlesDir) (title : List CodePoint)
    (sourceUrl : String) (hclass : LetterClass env.isLetterOrNumber)
    (hdate : FourDigitDate (env.shanghaiDate archivedAt))
    (hdigest : ∀ c ∈ (archive.sha256Hex sourceUrl).toList, isHexDigit c = true) :
    (∃ part, archiveFilename env title archivedAt =
        monthText (env.shanghaiDate archivedAt) ++ pad2 (env.shanghaiDate archivedAt).day.toNat ++
          "-" ++ String.ofList part ++ ".md" ∧
      (monthText (env.shanghaiDate archivedAt)).length = 6 ∧
      ValidTitle env.isLetterOrNumber part ∧ (∀ c ∈ part, ¬ UnsafeInName c) ∧
      part <+: normalizedTitle env title) ∧
    (archiveFilename env title archivedAt).utf8ByteSize ≤ 171 ∧
    MirroredName (env.shanghaiDate archivedAt) (archiveFilename env title archivedAt) ∧
    MirroredName (env.shanghaiDate archivedAt)
      (collisionSafeFilename archive directory (archiveFilename env title archivedAt) sourceUrl) := by
  have hvalid := normalizedTitle_valid hclass title
  -- the title cut to the bytes left is a valid beginning of it
  have hsafe : ValidTitle env.isLetterOrNumber (safeTitle (dateText (env.shanghaiDate archivedAt))
      (normalizedTitle env title)) :=
    hvalid.begins (prefix_takeBytes _ _) ((safeTitle_size hdate _).2 hvalid.nonempty)
  have hname : MirroredName (env.shanghaiDate archivedAt) (archiveFilename env title archivedAt) :=
    archiveStem_mirrored hclass hdate title (archiveFilename_toList title) (by simp)
      md_ascii md_lines
  refine ⟨⟨_, ?_, ?_, hsafe, fun c hc => hsafe.safe hclass hc, prefix_takeBytes _ _⟩, ?_, hname, ?_⟩
  · rw [archiveFilename, dateText_eq hdate]
  · rw [← String.length_toList, length_monthText hdate]
  · have hstem := archiveStem_size hdate title
    rw [← String.ofList_toList (s := archiveFilename env title archivedAt), archiveFilename_toList,
      String.ofList_append, String.utf8ByteSize_append]
    have hmd : (String.ofList ['.', 'm', 'd']).utf8ByteSize = 3 := rfl
    omega
  · unfold collisionSafeFilename
    split
    -- taken: the name less its suffix is the stem
    · have hdrop : (archiveFilename env title archivedAt).toList.take
          ((archiveFilename env title archivedAt).length - 3) = archiveStem env title archivedAt := by
        rw [← String.length_toList, archiveFilename_toList, List.length_append]
        exact List.take_left' (by simp)
      have hsuffixed (stem : List Char) (digits : String) :
          (String.ofList stem ++ "-" ++ String.ofList (digits.toList.take 8) ++ ".md").toList =
            stem ++ ('-' :: digits.toList.take 8 ++ ['.', 'm', 'd']) := by simp
      rw [hdrop]
      refine archiveStem_mirrored hclass hdate title (hsuffixed _ _) ?_ ?_ ?_
      · have := List.length_take_le 8 (archive.sha256Hex sourceUrl).toList
        simp only [List.length_cons, List.length_append, List.length_nil, List.cons_append]
        omega
      · intro c hc
        rcases List.mem_cons.mp hc with rfl | hc
        · decide
        · rcases List.mem_append.mp hc with hdigit | hmd
          · exact isHexDigit_lt (hdigest c (List.mem_of_mem_take hdigit))
          · exact md_ascii c hmd
      · intro c hc
        rcases List.mem_cons.mp hc with rfl | hc
        · decide
        · rcases List.mem_append.mp hc with hdigit | hmd
          · exact isHexDigit_not_terminator (hdigest c (List.mem_of_mem_take hdigit))
          · exact md_lines c hmd
    · exact hname

end Names

namespace ArchiveNames.Sample

def env : NameEnv where
  normalizeNfkc := id
  isLetterOrNumber := Char.isAlphanum
  shanghaiDate now := civilDate (shanghaiDay now)

/-- The letters and digits are those of ASCII. -/
theorem toNat_of_isAlphanum {c : Char} (h : c.isAlphanum = true) :
    (48 ≤ c.toNat ∧ c.toNat ≤ 57) ∨ (65 ≤ c.toNat ∧ c.toNat ≤ 90) ∨
      (97 ≤ c.toNat ∧ c.toNat ≤ 122) := by
  simp only [Char.isAlphanum, Char.isAlpha, Bool.or_eq_true] at h
  rcases h with (hupper | hlower) | hdigit
  · simp only [Char.isUpper, decide_eq_true_eq] at hupper
    exact Or.inr (Or.inl ⟨UInt32.le_iff_toNat_le.mp hupper.1, UInt32.le_iff_toNat_le.mp hupper.2⟩)
  · simp only [Char.isLower, Bool.and_eq_true, decide_eq_true_eq] at hlower
    exact Or.inr (Or.inr ⟨UInt32.le_iff_toNat_le.mp hlower.1, UInt32.le_iff_toNat_le.mp hlower.2⟩)
  · exact Or.inl (Char.isDigit_iff_toNat.mp hdigit)

/-- The letters and digits of ASCII are a class of letters as it is asked for. -/
theorem isAlphanum_letterClass : LetterClass Char.isAlphanum where
  hyphen := by decide
  ascii c h := by simp [Char.isAlphanum, h]
  notUnsafe c h := by
    rw [Bool.eq_false_iff]
    intro halnum
    have hrange := toNat_of_isAlphanum halnum
    rcases h with rfl | rfl | rfl | hspace | hcontrol | hcontrol
    · exact absurd halnum (by decide)
    · exact absurd halnum (by decide)
    · exact absurd halnum (by decide)
    · rcases Bool.or_eq_true_iff.mp hspace with hlist | hblank
      · simp only [List.mem_cons, List.not_mem_nil, or_false, decide_eq_true_eq] at hlist
        rcases hlist with rfl | rfl | rfl | rfl | rfl | rfl | rfl | rfl | rfl | rfl | rfl | rfl | rfl | rfl <;>
          exact absurd halnum (by decide)
      · simp only [Bool.and_eq_true, decide_eq_true_eq] at hblank
        omega
    · omega
    · omega

/-- `/`, a surrogate of its own, and two letters with characters between them. -/
def title : List CodePoint :=
  [.char '/', .lone 0xd800 (by decide), .char 'a', .char '.', .char '/', .char 'b']

def archive : ArchiveEnv where
  parseUrl _ := none
  renderString _ _ := .ok ""
  toLowerCase := id
  normalizeNfkc := id
  isLetterOrNumber := Char.isAlphanum
  sha256Hex _ := "daa1944644c377b3cf4807d9426a106de1003fff8ea4ec65634522fcfe0e83c0"

/-- Another article has the name already. -/
def directory : ArticlesDir where
  files := [{ entry := "20260102-a-b.md", content := "" }]
  nodup := by simp

theorem archiveFilename_valid_taken :
    archiveFilename env title 1767283200000 = "20260102-a-b.md" ∧
    (archiveFilename env title 1767283200000).utf8ByteSize ≤ 171 ∧
    MirroredName (env.shanghaiDate 1767283200000)
      (collisionSafeFilename archive directory (archiveFilename env title 1767283200000)
        "https://a.example/b") := by
  have hvalid := archiveFilename_valid env 1767283200000 archive directory title
    "https://a.example/b" isAlphanum_letterClass
    ⟨by decide +kernel, by decide +kernel, by decide +kernel⟩
    (List.all_eq_true.mp (by decide +kernel))
  exact ⟨by decide +kernel, hvalid.2.1, hvalid.2.2.2⟩

end ArchiveNames.Sample

end InboxServer
