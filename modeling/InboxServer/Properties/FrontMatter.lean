import InboxServer.Properties.ArchivePhase
import InboxServer.Worker.ArticleRepository

/-!
# The properties of an archived article

* `readFrontMatter_render` — the six properties are read back from the rendered file
* `archived_iff` — the lookup of the repository finds the file for its URL and for no other, unless
  U+2028 or U+2029 ends a line of the file for the lookup that is no line of it
-/

namespace InboxServer

open Json (escapeChar quote)

/-! ## Escaped text -/

/-- A line terminator that a string literal holds as it is. -/
def isSeparator (c : Char) : Bool := c = '\u2028' || c = '\u2029'

/-- A character stands for itself, or is escaped. -/
theorem escapeChar_cases (c : Char) :
    (escapeChar c = [c] ∧ c ≠ '"' ∧ c ≠ '\\' ∧ isLineTerminator c = isSeparator c) ∨
      ((∃ rest, escapeChar c = '\\' :: rest) ∧ (c = '"' ∨ c = '\\' ∨ c.toNat < 32) ∧
        isSeparator c = false ∧ ∀ d ∈ escapeChar c, isLineTerminator d = false) := by
  unfold escapeChar
  split_ifs with hquote hslash hback hfeed hline hreturn htab hcontrol
  · subst hquote; right; simp; decide
  · subst hslash; right; simp; decide
  · subst hback; right; simp; decide
  · subst hfeed; right; simp; decide
  · subst hline; right; simp; decide
  · subst hreturn; right; simp; decide
  · subst htab; right; simp; decide
  · have hnumbers : ∀ n < 32, isSeparator (Char.ofNat n) = false ∧
        ∀ d ∈ Json.escapeControl (Char.ofNat n), isLineTerminator d = false := by
      intro n hn
      interval_cases n <;> simp [Json.escapeControl, isLineTerminator, isSeparator]
    have hc := hnumbers c.toNat hcontrol
    rw [Char.ofNat_toNat] at hc
    exact Or.inr ⟨⟨_, rfl⟩, Or.inr (Or.inr hcontrol), hc⟩
  · left
    refine ⟨rfl, hquote, hslash, ?_⟩
    simp [isLineTerminator, isSeparator, hline, hreturn]

/-- A character that no literal escapes. -/
def isPlain (c : Char) : Bool := c ≠ '"' && c ≠ '\\' && 32 ≤ c.toNat

theorem escapeChar_plain {c : Char} (h : isPlain c = true) : escapeChar c = [c] := by
  simp only [isPlain, Bool.and_eq_true, decide_eq_true_eq, ne_eq] at h
  rcases escapeChar_cases c with ⟨hself, -⟩ | ⟨-, hescaped, -⟩
  · exact hself
  · rcases hescaped with hquote | hslash | hcontrol
    · exact absurd hquote h.1.1
    · exact absurd hslash h.1.2
    · omega

theorem flatMap_escapeChar_plain {word : List Char} (h : ∀ c ∈ word, isPlain c = true) :
    word.flatMap escapeChar = word := by
  induction word with
  | nil => rfl
  | cons c word ih =>
    rw [List.forall_mem_cons] at h
    rw [List.flatMap_cons, escapeChar_plain h.1, ih h.2, List.singleton_append]

/-- A literal begins with a word of plain characters when the text does. -/
theorem prefix_escaped {word : List Char} (hword : ∀ c ∈ word, isPlain c = true)
    (text rest : List Char) :
    word <+: text.flatMap escapeChar ++ '"' :: rest ↔ word <+: text := by
  induction word generalizing text with
  | nil => simp
  | cons c word ih =>
    rw [List.forall_mem_cons] at hword
    have hc := hword.1
    simp only [isPlain, Bool.and_eq_true, decide_eq_true_eq, ne_eq] at hc
    cases text with
    | nil =>
      rw [List.flatMap_nil, List.nil_append, List.cons_prefix_cons]
      constructor
      · rintro ⟨hquote, -⟩
        exact absurd hquote hc.1.1
      · intro h
        cases List.prefix_nil.mp h
    | cons d text =>
      rw [List.flatMap_cons, List.append_assoc]
      rcases escapeChar_cases d with ⟨hself, -⟩ | ⟨⟨tail, htail⟩, hescaped, -⟩
      · rw [hself, List.singleton_append, List.cons_prefix_cons, List.cons_prefix_cons,
          ih hword.2]
      · rw [htail, List.cons_append, List.cons_prefix_cons, List.cons_prefix_cons]
        constructor
        · rintro ⟨hslash, -⟩
          exact absurd hslash hc.1.2
        · rintro ⟨rfl, -⟩
          rcases hescaped with hquote | hslash | hcontrol
          · exact absurd hquote hc.1.1
          · exact absurd hslash hc.1.2
          · omega

theorem sourceUrlKey_plain : ∀ c ∈ sourceUrlKey, isPlain c = true := by
  simp [sourceUrlKey, isPlain]

/-! ## The scanner -/

theorem matchHere_false (text : List Char) : matchHere false text = none := rfl

theorem matchHere_of_not_begins {lineStart : Bool} {text : List Char}
    (h : ¬ (lineStart = true ∧ sourceUrlKey <+: text)) : matchHere lineStart text = none := by
  unfold matchHere
  rw [if_neg]
  simpa [List.isPrefixOf_iff_prefix] using h

/-- The scanner passes what has no line terminator. -/
theorem execSourceUrl_skip {passed : List Char} (h : ∀ c ∈ passed, isLineTerminator c = false)
    (rest : List Char) : execSourceUrl false (passed ++ rest) = execSourceUrl false rest := by
  induction passed with
  | nil => rfl
  | cons c passed ih =>
    rw [List.forall_mem_cons] at h
    rw [List.cons_append, execSourceUrl, matchHere_false, Option.none_or, h.1]
    exact ih h.2

/-- The scanner passes one character of a literal. -/
theorem execSourceUrl_escapeChar {lineStart : Bool} {c : Char} {rest : List Char}
    (h : ¬ (lineStart = true ∧ sourceUrlKey <+: escapeChar c ++ rest)) :
    execSourceUrl lineStart (escapeChar c ++ rest) = execSourceUrl (isSeparator c) rest := by
  rcases escapeChar_cases c with ⟨hself, -, -, hline⟩ | ⟨⟨tail, htail⟩, -, hseparator, hnone⟩
  · rw [hself, List.singleton_append] at h ⊢
    rw [execSourceUrl, matchHere_of_not_begins h, Option.none_or, hline]
  · rw [htail, List.forall_mem_cons] at hnone
    rw [htail, List.cons_append] at h ⊢
    rw [execSourceUrl, matchHere_of_not_begins h, Option.none_or, hnone.1,
      execSourceUrl_skip hnone.2, hseparator]

/-! ## A title that begins a line -/

/-- Somewhere in the text a separator stands before `source_url:`. -/
def OpensSourceUrl (text : List Char) : Prop :=
  ∃ c, isSeparator c = true ∧ c :: sourceUrlKey <:+: text

/-- A match lies in the text. -/
def Matches (lineStart : Bool) (text : List Char) : Prop :=
  lineStart = true ∧ sourceUrlKey <+: text ∨ OpensSourceUrl text

theorem matches_nil (lineStart : Bool) : ¬ Matches lineStart [] := by
  rintro (⟨-, hopens⟩ | ⟨c, -, hlies⟩)
  · exact absurd (List.prefix_nil.mp hopens) (by decide)
  · cases List.infix_nil.mp hlies

/-- The field of the source begins behind a separator. -/
theorem opensSourceUrl_cons (c : Char) (text : List Char) :
    OpensSourceUrl (c :: text) ↔ Matches (isSeparator c) text := by
  unfold OpensSourceUrl Matches
  constructor
  · rintro ⟨d, hd, hlies⟩
    rcases List.infix_cons_iff.mp hlies with hopens | hlies
    · obtain ⟨hsame, htail⟩ := List.cons_prefix_cons.mp hopens
      rw [← hsame]
      exact Or.inl ⟨hd, htail⟩
    · exact Or.inr ⟨d, hd, hlies⟩
  · rintro (⟨hc, hopens⟩ | ⟨d, hd, hlies⟩)
    · exact ⟨c, hc, (List.cons_prefix_cons.mpr ⟨rfl, hopens⟩).isInfix⟩
    · exact ⟨d, hd, List.infix_cons_iff.mpr (Or.inr hlies)⟩

/-- A literal without a match is passed, and the line after it is scanned. -/
theorem execSourceUrl_literal {lineStart : Bool} {text : List Char}
    (h : ¬ Matches lineStart text) (rest : List Char) :
    execSourceUrl lineStart (text.flatMap escapeChar ++ '"' :: '\n' :: rest) =
      execSourceUrl true rest := by
  induction text generalizing lineStart with
  | nil =>
    have hquote : ¬ (lineStart = true ∧ sourceUrlKey <+: '"' :: '\n' :: rest) := by
      simp [sourceUrlKey]
    rw [List.flatMap_nil, List.nil_append, execSourceUrl, matchHere_of_not_begins hquote,
      Option.none_or, execSourceUrl]
    rfl
  | cons c text ih =>
    have hhere : ¬ (lineStart = true ∧ sourceUrlKey <+: c :: text) := fun hm => h (Or.inl hm)
    have hrest : ¬ Matches (isSeparator c) text := fun hm =>
      h (Or.inr ((opensSourceUrl_cons c text).mpr hm))
    rw [← prefix_escaped sourceUrlKey_plain (c :: text) ('\n' :: rest), List.flatMap_cons,
      List.append_assoc] at hhere
    rw [List.flatMap_cons, List.append_assoc, execSourceUrl_escapeChar hhere]
    exact ih hrest

theorem isSpaceChar_of_terminator {c : Char} (h : isLineTerminator c = true) :
    isSpaceChar c = true := by
  simp only [isLineTerminator, List.mem_cons, List.not_mem_nil, or_false, decide_eq_true_eq] at h
  rcases h with rfl | rfl | rfl | rfl <;> rfl

theorem isSpaceChar_of_jsonSpace {c : Char} (h : Json.isJsonSpace c = true) :
    isSpaceChar c = true := by
  simp only [Json.isJsonSpace, Bool.or_eq_true, decide_eq_true_eq] at h
  rcases h with ((rfl | rfl) | rfl) | rfl <;> rfl

/-- After white space in a literal comes its end, or a character that is no quote. -/
theorem dropWhile_literal (text rest : List Char) :
    ∃ c tail, (text.flatMap escapeChar ++ '"' :: rest).dropWhile isSpaceChar = c :: tail ∧
      isSpaceChar c = false ∧ (c = '"' → tail = rest) := by
  induction text with
  | nil => exact ⟨'"', rest, rfl, rfl, fun _ => rfl⟩
  | cons c text ih =>
    rw [List.flatMap_cons, List.append_assoc]
    rcases escapeChar_cases c with ⟨hself, hquote, -⟩ | ⟨⟨tail, htail⟩, -⟩
    · rw [hself, List.singleton_append]
      cases hspace : isSpaceChar c with
      | true =>
        rw [List.dropWhile_cons_of_pos hspace]
        exact ih
      | false =>
        rw [List.dropWhile_cons_of_neg (by rw [hspace]; exact Bool.false_ne_true)]
        exact ⟨c, _, rfl, hspace, fun h => absurd h hquote⟩
    · rw [htail, List.cons_append]
      exact ⟨'\\', _, rfl, rfl, fun h => absurd h (by decide)⟩

/-- What a match in a literal captures is no string of JSON. -/
theorem captureValue_literal (text rest : List Char) :
    ∃ capture, captureValue (text.flatMap escapeChar ++ '"' :: '\n' :: rest) = some capture ∧
      Json.parseString capture = none := by
  obtain ⟨c, tail, hdrop, hspace, hquote⟩ := dropWhile_literal text ('\n' :: rest)
  have hterminator : isLineTerminator c = false := by
    by_contra h
    rw [isSpaceChar_of_terminator (Bool.eq_true_of_not_eq_false h)] at hspace
    cases hspace
  have hjson : ¬ Json.isJsonSpace c = true := by
    intro h
    rw [isSpaceChar_of_jsonSpace h] at hspace
    cases hspace
  refine ⟨(c :: tail).takeWhile fun c => !isLineTerminator c, by rw [captureValue, hdrop], ?_⟩
  rw [List.takeWhile_cons_of_pos (by rw [hterminator]; rfl), Json.parseString,
    List.dropWhile_cons_of_neg hjson]
  by_cases hc : c = '"'
  · -- the capture is the closing quote alone
    subst hc
    rw [hquote rfl]
    rfl
  · split
    · next heq => exact absurd (List.cons.inj heq).1 hc
    · rfl

theorem execSourceUrl_of_matchHere {lineStart : Bool} {text capture : List Char}
    (h : matchHere lineStart text = some capture) : execSourceUrl lineStart text = some capture := by
  cases text with
  | nil => exact h
  | cons c rest => rw [execSourceUrl, h, Option.some_or]

/-- A line that begins with the key is matched. -/
theorem execSourceUrl_key {rest capture : List Char} (h : captureValue rest = some capture) :
    execSourceUrl true (sourceUrlKey ++ rest) = some capture := by
  refine execSourceUrl_of_matchHere ?_
  unfold matchHere
  rw [if_pos (by simp), List.drop_left, h]

/-- A literal with a match hides the rest of the file. -/
theorem execSourceUrl_match {lineStart : Bool} {text : List Char} (h : Matches lineStart text)
    (rest : List Char) :
    (execSourceUrl lineStart (text.flatMap escapeChar ++ '"' :: '\n' :: rest)).bind
      Json.parseString = none := by
  induction text generalizing lineStart with
  | nil => exact absurd h (matches_nil lineStart)
  | cons c text ih =>
    by_cases hhere : lineStart = true ∧ sourceUrlKey <+: c :: text
    · obtain ⟨rfl, after, hafter⟩ := hhere
      have hwhole : (c :: text).flatMap escapeChar ++ '"' :: '\n' :: rest =
          sourceUrlKey ++ (after.flatMap escapeChar ++ '"' :: '\n' :: rest) := by
        rw [← hafter, List.flatMap_append, flatMap_escapeChar_plain sourceUrlKey_plain,
          List.append_assoc]
      obtain ⟨capture, hcapture, hparse⟩ := captureValue_literal after rest
      rw [hwhole, execSourceUrl_key hcapture, Option.bind_some, hparse]
    · have hrest : Matches (isSeparator c) text := by
        rcases h with hopens | hopens
        · exact absurd hopens hhere
        · exact (opensSourceUrl_cons c text).mp hopens
      rw [← prefix_escaped sourceUrlKey_plain (c :: text) ('\n' :: rest), List.flatMap_cons,
        List.append_assoc] at hhere
      rw [List.flatMap_cons, List.append_assoc, execSourceUrl_escapeChar hhere]
      exact ih hrest

/-! ## The line of the URL -/

/-- A literal ends its line, or a separator in it does. -/
theorem takeWhile_literal (text rest : List Char) :
    (text.flatMap escapeChar ++ '"' :: '\n' :: rest).takeWhile (fun c => !isLineTerminator c) =
      if text.any isSeparator then (text.takeWhile fun c => !isSeparator c).flatMap escapeChar
      else text.flatMap escapeChar ++ ['"'] := by
  induction text with
  | nil => rfl
  | cons c text ih =>
    rw [List.flatMap_cons, List.append_assoc, List.any_cons]
    rcases escapeChar_cases c with ⟨hself, -, -, hline⟩ | ⟨-, -, hseparator, hnone⟩
    · rw [hself, List.singleton_append]
      cases hc : isSeparator c with
      | true =>
        rw [List.takeWhile_cons_of_neg (by rw [hline, hc]; exact Bool.false_ne_true),
          List.takeWhile_cons_of_neg (by rw [hc]; exact Bool.false_ne_true)]
        rfl
      | false =>
        rw [List.takeWhile_cons_of_pos (by rw [hline, hc]; rfl),
          List.takeWhile_cons_of_pos (by rw [hc]; rfl), ih, Bool.false_or, List.flatMap_cons, hself]
        split <;> rfl
    · rw [List.takeWhile_append_of_pos (fun d hd => by rw [hnone d hd]; rfl), ih, hseparator,
        Bool.false_or, List.takeWhile_cons_of_pos (by rw [hseparator]; rfl), List.flatMap_cons]
      split
      · rfl
      · rw [List.append_assoc]

/-- The line of the URL is read as the URL, where it is not cut short. -/
theorem execSourceUrl_url (url : String) (rest : List Char) :
    (execSourceUrl true (sourceUrlKey ++ ' ' :: ((quote url).toList ++ '\n' :: rest))).bind
      Json.parseString = if url.toList.any isSeparator then none else some (utf16Units url) := by
  have hcapture : captureValue (' ' :: ((quote url).toList ++ '\n' :: rest)) =
      some ('"' :: (url.toList.flatMap escapeChar ++ '"' :: '\n' :: rest).takeWhile
        fun c => !isLineTerminator c) := by
    rw [Json.toList_quote, List.cons_append, List.append_assoc, List.singleton_append]
    rfl
  rw [execSourceUrl_key hcapture, Option.bind_some, takeWhile_literal]
  split
  · exact Json.parseString_open _
  · rw [← Json.toList_quote]
    exact Json.parseString_quote url

/-! ## The rendered file -/

/-- The properties of an article, each with its value as the file has it. -/
def articleProperties (archivedAt : Instant) (article : ExtractedArticle) (sourceUrl : String)
    (tags : List String) : Entries String :=
  [("title", yamlScalar article.title), ("source_url", yamlScalar sourceUrl),
    ("archived_at", yamlScalar (toISOString archivedAt)), ("author", yamlScalar article.author),
    ("published_at", yamlScalar article.publishedAt), ("tags", (jsonTags tags).stringify)]

def propertyLine (entry : String × String) : List Char :=
  entry.1.toList ++ ':' :: ' ' :: entry.2.toList

def fence : List Char := ['-', '-', '-']

/-- Lines, each with its end. -/
def joinLines (lines : List (List Char)) : List Char := lines.flatMap fun line => line ++ ['\n']

@[simp] theorem joinLines_cons (line : List Char) (lines : List (List Char)) :
    joinLines (line :: lines) = line ++ '\n' :: joinLines lines := by
  simp [joinLines]

/-- The end of a text, without the white space at its end. -/
def trimEnd (tail : List Char) : List Char := (tail.reverse.dropWhile isSpaceChar).reverse

theorem prefix_trimEnd (tail : List Char) : trimEnd tail <+: tail := by
  have hsuffix := List.dropWhile_suffix isSpaceChar (l := tail.reverse)
  have hopens := List.reverse_prefix.mpr hsuffix
  rwa [List.reverse_reverse] at hopens

/-- Nothing is trimmed but the end of what follows the last character that is no white space. -/
theorem trimText_middle {c d : Char} (hc : isSpaceChar c = false) (hd : isSpaceChar d = false)
    (middle tail : List Char) :
    (trimText (String.ofList (c :: (middle ++ d :: tail)))).toList =
      c :: (middle ++ d :: trimEnd tail) := by
  have hstart : (c :: (middle ++ d :: tail)).dropWhile isSpaceChar = c :: (middle ++ d :: tail) :=
    List.dropWhile_cons_of_neg (by rw [hc]; exact Bool.false_ne_true)
  have hreverse : (c :: (middle ++ d :: tail)).reverse =
      tail.reverse ++ d :: (c :: middle).reverse := by
    simp
  have hlast : (d :: (c :: middle).reverse).dropWhile isSpaceChar = d :: (c :: middle).reverse :=
    List.dropWhile_cons_of_neg (by rw [hd]; exact Bool.false_ne_true)
  rw [trimText, String.toList_ofList, String.toList_ofList, hstart, hreverse,
    List.dropWhile_append, hlast, trimEnd]
  split
  · next hempty =>
    rw [List.isEmpty_iff.mp hempty]
    simp
  · simp

theorem trimText_toList {c d : Char} (hc : isSpaceChar c = false) (hd : isSpaceChar d = false)
    (middle tail : List Char) :
    ∃ kept, kept <+: tail ∧ (trimText (String.ofList (c :: (middle ++ d :: tail)))).toList =
      c :: (middle ++ d :: kept) :=
  ⟨trimEnd tail, prefix_trimEnd tail, trimText_middle hc hd middle tail⟩

/-- **The file begins with the properties between two fences.** -/
theorem render_content {env : ArchiveEnv} (hfills : env.FillsTemplate) {archivedAt : Instant}
    {article : ExtractedArticle} {sourceUrl : String} {tags : List String} {content : String}
    (h : renderArticleMarkdown env articleTemplateSource archivedAt article sourceUrl tags =
      .ok content) :
    ∃ body, content.toList =
      joinLines (fence :: ((articleProperties archivedAt article sourceUrl tags).map propertyLine ++
        [fence])) ++ body := by
  unfold renderArticleMarkdown at h
  rw [hfills] at h
  have hcontent := Except.ok.inj h
  have hfilled : ∃ middle, fillArticle (templateData archivedAt article sourceUrl tags) =
      String.ofList ('-' :: (middle ++ '-' :: '\n' :: '\n' :: ((trimText article.markdown).toList ++
        ['\n']))) ∧ '-' :: (middle ++ ['-', '\n']) =
      joinLines (fence :: ((articleProperties archivedAt article sourceUrl tags).map propertyLine ++
        [fence])) := by
    refine ⟨'-' :: '-' :: '\n' :: (joinLines ((articleProperties archivedAt article sourceUrl
      tags).map propertyLine) ++ ['-', '-']), ?_, ?_⟩
    · apply String.toList_inj.mp
      simp [fillArticle, articleTemplate, templateData, TemplatePiece.fill, List.lookup,
        articleProperties, propertyLine, joinLines, String.join]
    · simp [joinLines, fence]
  obtain ⟨middle, hfilled, hlines⟩ := hfilled
  obtain ⟨kept, hkept, htrim⟩ := trimText_toList (c := '-') (d := '-') rfl rfl middle
    ('\n' :: '\n' :: ((trimText article.markdown).toList ++ ['\n']))
  rw [← hcontent, hfilled, String.toList_append, htrim, ← hlines]
  cases kept with
  | nil => exact ⟨[], by simp⟩
  | cons c kept =>
    obtain ⟨rfl, -⟩ := List.cons_prefix_cons.mp hkept
    exact ⟨kept ++ ['\n'], by simp⟩

/-- A line that begins otherwise is passed up to a literal in it. -/
theorem execSourceUrl_line {c : Char} {line : List Char} (hc : c ≠ 's')
    (hline : ∀ d ∈ c :: line, isLineTerminator d = false) (rest : List Char) :
    execSourceUrl true (c :: line ++ rest) = execSourceUrl false rest := by
  rw [List.forall_mem_cons] at hline
  have hkey : ¬ (true = true ∧ sourceUrlKey <+: c :: (line ++ rest)) := by
    rintro ⟨-, hopens⟩
    exact hc (List.cons_prefix_cons.mp hopens).1.symm
  rw [List.cons_append, execSourceUrl, matchHere_of_not_begins hkey, Option.none_or, hline.1,
    execSourceUrl_skip hline.2]

/-- The title hides the line of the URL, or the URL cuts it short, or the URL is read. -/
theorem fileSourceUrl_content {archivedAt : Instant} {article : ExtractedArticle}
    {sourceUrl : String} {tags : List String} {content : String} {body : List Char}
    (h : content.toList =
      joinLines (fence :: ((articleProperties archivedAt article sourceUrl tags).map propertyLine ++
        [fence])) ++ body) :
    fileSourceUrl content = some (utf16Units sourceUrl) ∧
        ¬ OpensSourceUrl article.title.toList ∧ sourceUrl.toList.any isSeparator = false ∨
      fileSourceUrl content = none ∧
        (OpensSourceUrl article.title.toList ∨ sourceUrl.toList.any isSeparator = true) := by
  obtain ⟨rest, hrest⟩ : ∃ rest, content.toList = '-' :: ['-', '-'] ++ '\n' ::
      ('t' :: ['i', 't', 'l', 'e', ':', ' ', '"'] ++ (article.title.toList.flatMap escapeChar ++
        '"' :: '\n' :: (sourceUrlKey ++ ' ' :: ((quote sourceUrl).toList ++ '\n' :: rest)))) :=
    ⟨_, by rw [h]; simp [articleProperties, propertyLine, yamlScalar, fence, sourceUrlKey]; rfl⟩
  have hexec : execSourceUrl true content.toList =
      execSourceUrl false (article.title.toList.flatMap escapeChar ++
        '"' :: '\n' :: (sourceUrlKey ++ ' ' :: ((quote sourceUrl).toList ++ '\n' :: rest))) := by
    rw [hrest, execSourceUrl_line (by decide) (by simp [isLineTerminator]), execSourceUrl,
      matchHere_false, Option.none_or, show isLineTerminator '\n' = true from rfl,
      execSourceUrl_line (by decide) (by simp [isLineTerminator])]
  unfold fileSourceUrl
  rw [hexec]
  by_cases htitle : OpensSourceUrl article.title.toList
  · exact Or.inr ⟨execSourceUrl_match (Or.inr htitle) _, Or.inl htitle⟩
  · have hnone : ¬ Matches false article.title.toList := by
      rintro (⟨hfalse, -⟩ | hopens)
      · cases hfalse
      · exact htitle hopens
    rw [execSourceUrl_literal hnone, execSourceUrl_url]
    cases sourceUrl.toList.any isSeparator with
    | true => exact Or.inr ⟨rfl, Or.inr rfl⟩
    | false => exact Or.inl ⟨rfl, htitle, rfl⟩

/-! ## The lookup -/

/-- Somewhere before the file another one is found for the URL. -/
def FoundBefore (sourceUrl : String) (before : List DirectoryFile) : Prop :=
  ∃ file ∈ before, file.hasSourceUrl sourceUrl = true

/-- A file is found for its URL, unless an earlier one is. -/
theorem findSourceUrl_iff {directory : ArticlesDir} {before after : List DirectoryFile}
    {file : DirectoryFile} (h : directory.files = before ++ file :: after) (url : String) :
    directory.findSourceUrl url = some file.entry ↔
      file.hasSourceUrl url = true ∧ ¬ FoundBefore url before := by
  have hnodup := directory.nodup
  rw [h, List.map_append, List.map_cons, List.nodup_middle, List.nodup_cons] at hnodup
  have hother : ∀ other ∈ before ++ after, other.entry ≠ file.entry := by
    intro other hmem hentry
    rw [← hentry, ← List.map_append] at hnodup
    exact hnodup.1 (List.mem_map_of_mem hmem)
  have hsplit : directory.files.find? (DirectoryFile.hasSourceUrl url) =
      (before.find? (DirectoryFile.hasSourceUrl url)).or
        ((file :: after).find? (DirectoryFile.hasSourceUrl url)) := by
    rw [h, List.find?_append]
  unfold ArticlesDir.findSourceUrl FoundBefore
  rw [hsplit]
  cases hbefore : before.find? (DirectoryFile.hasSourceUrl url) with
  | some earlier =>
    have hmem := List.mem_of_find?_eq_some hbefore
    have hfound := List.find?_some hbefore
    constructor
    · intro hentry
      exact absurd (Option.some.inj hentry) (hother _ (List.mem_append_left _ hmem))
    · rintro ⟨-, hnone⟩
      exact absurd ⟨earlier, hmem, hfound⟩ hnone
  | none =>
    have hnone : ¬ ∃ file ∈ before, file.hasSourceUrl url = true := by
      simpa using hbefore
    rw [Option.none_or]
    cases hfile : file.hasSourceUrl url with
    | true => simp [hfile, hnone]
    | false =>
      simp only [List.find?_cons, hfile, Bool.false_eq_true, false_and, iff_false]
      intro hentry
      obtain ⟨later, hlater, heq⟩ := Option.map_eq_some_iff.mp hentry
      exact hother _ (List.mem_append_right _ (List.mem_of_find?_eq_some hlater)) heq

/-! ## A reader of properties -/

/-- The value of a property, each string by its code units. -/
inductive PropertyValue where
  | scalar (units : List Nat)
  | list (items : List (List Nat))
  deriving DecidableEq

/-- The strings of a list up to its bracket, at most `n` of them. -/
def readStrings : Nat → List Char → Option (List (List Nat) × List Char)
  | 0, _ => none
  | n + 1, text =>
    match text.dropWhile Json.isJsonSpace with
    | '"' :: rest => (Json.readLiteral rest).bind fun read =>
      match read.2.dropWhile Json.isJsonSpace with
      | ',' :: rest => (readStrings n rest).map fun items => (read.1 :: items.1, items.2)
      | ']' :: rest => some ([read.1], rest)
      | _ => none
    | _ => none

def parseStrings (text : List Char) : Option (List (List Nat)) :=
  match text.dropWhile Json.isJsonSpace with
  | '[' :: rest =>
    match rest.dropWhile Json.isJsonSpace with
    | ']' :: rest => if rest.all Json.isJsonSpace then some [] else none
    | items => (readStrings items.length items).bind fun read =>
      if read.2.all Json.isJsonSpace then some read.1 else none
  | _ => none

/-- A value that is a string or a list of strings as JSON writes it, as YAML has it too. -/
def readValue (text : List Char) : Option PropertyValue :=
  ((Json.parseString text).map .scalar).or ((parseStrings text).map .list)

/-- The lines between the first two fences. -/
def frontMatterLines (content : String) : Option (List (List Char)) :=
  match (content.toList.splitOn '\n').dropWhile (· ≠ fence) with
  | [] => none
  | _ :: rest => if fence ∈ rest then some (rest.takeWhile (· ≠ fence)) else none

def readProperty (line : List Char) : Option (String × PropertyValue) :=
  match line.dropWhile (· ≠ ':') with
  | ':' :: ' ' :: value =>
    (readValue value).map fun value => (String.ofList (line.takeWhile (· ≠ ':')), value)
  | _ => none

def readFrontMatter (content : String) : Option (Entries PropertyValue) :=
  (frontMatterLines content).bind fun lines => lines.mapM readProperty

theorem readValue_scalar (s : String) :
    readValue (yamlScalar s).toList = some (.scalar (utf16Units s)) := by
  rw [readValue, yamlScalar, Json.parseString_quote]
  rfl

/-- The tags are read as they were written. -/
theorem readStrings_tags (tag : String) (tags : List String) (rest : List Char) {n : Nat}
    (hn : tags.length < n) :
    readStrings n ((quote tag).toList ++ (Json.commas (tags.map quote) ++ ']' :: rest)) =
      some ((tag :: tags).map utf16Units, rest) := by
  induction n generalizing tag tags with
  | zero => exact absurd hn (Nat.not_lt_zero _)
  | succ n ih =>
    have hread : Json.readLiteral (tag.toList.flatMap escapeChar ++
        '"' :: (Json.commas (tags.map quote) ++ ']' :: rest)) =
          some (utf16Units tag, Json.commas (tags.map quote) ++ ']' :: rest) :=
      Json.readLiteral_quote _ _
    have htext : (quote tag).toList ++ (Json.commas (tags.map quote) ++ ']' :: rest) =
        '"' :: (tag.toList.flatMap escapeChar ++
          '"' :: (Json.commas (tags.map quote) ++ ']' :: rest)) := by
      simp
    rw [readStrings, htext, List.dropWhile_cons_of_neg (by decide)]
    simp only [hread, Option.bind_some]
    cases tags with
    | nil => rfl
    | cons next tags =>
      have hcommas : Json.commas ((next :: tags).map quote) ++ ']' :: rest =
          ',' :: ((quote next).toList ++ (Json.commas (tags.map quote) ++ ']' :: rest)) := by
        simp [Json.commas]
      rw [hcommas, List.dropWhile_cons_of_neg (by decide)]
      simp only [ih next tags (by simpa using hn)]
      rfl

theorem length_le_commas (texts : List String) : texts.length ≤ (Json.commas texts).length := by
  induction texts with
  | nil => exact Nat.zero_le _
  | cons text texts ih =>
    have hcommas : Json.commas (text :: texts) = ',' :: (text.toList ++ Json.commas texts) := rfl
    rw [hcommas, List.length_cons, List.length_cons, List.length_append]
    omega

theorem stringifyItems_str (tags : List String) :
    Json.stringifyItems (tags.map .str) = tags.map quote := by
  induction tags with
  | nil => rfl
  | cons tag tags ih =>
    rw [List.map_cons, Json.stringifyItems, ih]
    rfl

theorem toList_tags (tag : String) (tags : List String) :
    (jsonTags (tag :: tags)).stringify.toList =
      '[' :: ((quote tag).toList ++ (Json.commas (tags.map quote) ++ [']'])) := by
  rw [jsonTags, List.map_cons, Json.toList_arr, stringifyItems_str]
  rfl

/-- The list of tags is read as the tags. -/
theorem readValue_tags (tags : List String) :
    readValue (jsonTags tags).stringify.toList = some (.list (tags.map utf16Units)) := by
  cases tags with
  | nil => rfl
  | cons tag tags =>
    have hlong : tags.length <
        ((quote tag).toList ++ (Json.commas (tags.map quote) ++ [']'])).length := by
      have hcommas := length_le_commas (tags.map quote)
      rw [List.length_map] at hcommas
      simp only [List.length_append, List.length_singleton]
      omega
    have hread := readStrings_tags tag tags [] hlong
    have hparse : parseStrings (jsonTags (tag :: tags)).stringify.toList =
        some ((tag :: tags).map utf16Units) := by
      rw [parseStrings, toList_tags, List.dropWhile_cons_of_neg (by decide)]
      rw [Json.toList_quote, List.cons_append] at hread ⊢
      simp only [List.dropWhile_cons_of_neg (show ¬ Json.isJsonSpace '"' = true by decide)]
      split
      · next heq => exact absurd (List.cons.inj heq).1 (by decide)
      · rw [hread]
        rfl
    have hstring : Json.parseString (jsonTags (tag :: tags)).stringify.toList = none := by
      rw [toList_tags]
      rfl
    rw [readValue, hstring, hparse]
    rfl

/-! ## What is read of the rendered file -/

/-- No line ends in a quoted text. -/
theorem newline_not_mem_quote (s : String) : '\n' ∉ (quote s).toList := by
  have hescaped : ∀ c, '\n' ∉ escapeChar c := by
    intro c hmem
    have hnewline : isLineTerminator '\n' = true := rfl
    rcases escapeChar_cases c with ⟨hself, -, -, hline⟩ | ⟨-, -, -, hnone⟩
    · rw [hself, List.mem_singleton] at hmem
      rw [← hmem] at hline
      cases hline
    · rw [hnone _ hmem] at hnewline
      cases hnewline
  simp only [Json.toList_quote, List.mem_cons, List.mem_append, List.mem_flatMap, List.not_mem_nil,
    or_false]
  rintro (hquote | ⟨c, -, hmem⟩ | hquote)
  · exact absurd hquote (by decide)
  · exact hescaped c hmem
  · exact absurd hquote (by decide)

theorem newline_not_mem_tags (tags : List String) : '\n' ∉ (jsonTags tags).stringify.toList := by
  cases tags with
  | nil => decide
  | cons tag tags =>
    rw [toList_tags]
    simp only [Json.commas, List.mem_cons, List.mem_append, List.mem_flatMap, List.mem_map,
      List.not_mem_nil, or_false]
    rintro (hbracket | hquote | ⟨text, ⟨next, -, rfl⟩, hcomma | hquote⟩ | hbracket)
    · exact absurd hbracket (by decide)
    · exact newline_not_mem_quote _ hquote
    · exact absurd hcomma (by decide)
    · exact newline_not_mem_quote _ hquote
    · exact absurd hbracket (by decide)

/-- No line of a property has an end in it, and none is a fence. -/
theorem propertyLine_line {archivedAt : Instant} {article : ExtractedArticle} {sourceUrl : String}
    {tags : List String} {line : List Char}
    (h : line ∈ (articleProperties archivedAt article sourceUrl tags).map propertyLine) :
    '\n' ∉ line ∧ line ≠ fence := by
  obtain ⟨entry, hentry, rfl⟩ := List.mem_map.mp h
  simp only [articleProperties, List.mem_cons, List.not_mem_nil, or_false] at hentry
  rcases hentry with rfl | rfl | rfl | rfl | rfl | rfl <;>
    simp [propertyLine, fence, yamlScalar, newline_not_mem_quote, newline_not_mem_tags,
      -Json.toList_quote]

theorem splitOn_joinLines {lines : List (List Char)} (h : ∀ line ∈ lines, '\n' ∉ line)
    (body : List Char) : (joinLines lines ++ body).splitOn '\n' = lines ++ body.splitOn '\n' := by
  induction lines with
  | nil => rfl
  | cons line lines ih =>
    rw [List.forall_mem_cons] at h
    rw [joinLines_cons, List.append_assoc, List.cons_append,
      List.splitOn_append_cons_self_of_not_mem h.1, ih h.2, List.cons_append]

/-- A line of the front matter is read as its name and its value. -/
theorem readProperty_line {name value : String} (hname : ':' ∉ name.toList) :
    readProperty (propertyLine (name, value)) =
      (readValue value.toList).map fun value => (name, value) := by
  have hne : ∀ c ∈ name.toList, decide (c ≠ ':') = true := by
    intro c hc
    rw [decide_eq_true_eq]
    rintro rfl
    exact hname hc
  have hdrop : (propertyLine (name, value)).dropWhile (· ≠ ':') = ':' :: ' ' :: value.toList := by
    rw [propertyLine, List.dropWhile_append_of_pos hne]
    simp
  have htake : (propertyLine (name, value)).takeWhile (· ≠ ':') = name.toList := by
    rw [propertyLine, List.takeWhile_append_of_pos hne]
    simp
  rw [readProperty, hdrop, htake, String.ofList_toList]
  rfl

/-- What the properties are read back as. -/
def propertyValues (archivedAt : Instant) (article : ExtractedArticle) (sourceUrl : String)
    (tags : List String) : Entries PropertyValue :=
  [("title", .scalar (utf16Units article.title)), ("source_url", .scalar (utf16Units sourceUrl)),
    ("archived_at", .scalar (utf16Units (toISOString archivedAt))),
    ("author", .scalar (utf16Units article.author)),
    ("published_at", .scalar (utf16Units article.publishedAt)),
    ("tags", .list (tags.map utf16Units))]

/-- **The properties are read back from the file.** -/
theorem readFrontMatter_render {archivedAt : Instant} {article : ExtractedArticle}
    {sourceUrl : String} {tags : List String} {content : String} {body : List Char}
    (h : content.toList =
      joinLines (fence :: ((articleProperties archivedAt article sourceUrl tags).map propertyLine ++
        [fence])) ++ body) :
    readFrontMatter content = some (propertyValues archivedAt article sourceUrl tags) := by
  have hlines : frontMatterLines content =
      some ((articleProperties archivedAt article sourceUrl tags).map propertyLine) := by
    have hclean : ∀ line ∈ fence :: ((articleProperties archivedAt article sourceUrl tags).map
        propertyLine ++ [fence]), '\n' ∉ line := by
      intro line hline
      simp only [List.mem_cons, List.mem_append, List.not_mem_nil, or_false] at hline
      rcases hline with rfl | hproperty | rfl
      · decide
      · exact (propertyLine_line hproperty).1
      · decide
    have hproperties : ∀ line ∈ (articleProperties archivedAt article sourceUrl tags).map
        propertyLine, decide (line ≠ fence) = true := fun line hline =>
      decide_eq_true (propertyLine_line hline).2
    rw [frontMatterLines, h, splitOn_joinLines hclean, List.cons_append,
      List.dropWhile_cons_of_neg (by simp), List.append_assoc, List.singleton_append]
    simp only
    rw [if_pos (by simp), List.takeWhile_append_of_pos hproperties,
      List.takeWhile_cons_of_neg (by simp), List.append_nil]
  rw [readFrontMatter, hlines, Option.bind_some]
  simp only [articleProperties, List.map_cons, List.map_nil, List.mapM_cons, List.mapM_nil]
  rw [readProperty_line (by decide), readProperty_line (by decide), readProperty_line (by decide),
    readProperty_line (by decide), readProperty_line (by decide), readProperty_line (by decide),
    readValue_scalar, readValue_scalar, readValue_scalar, readValue_scalar, readValue_scalar,
    readValue_tags]
  rfl

/-! ## An archived article -/

/-- The properties are read back, and the file is found for its URL and for no other. -/
structure Archived (directory : ArticlesDir) (file : DirectoryFile) (archivedAt : Instant)
    (article : ExtractedArticle) (sourceUrl : String) (tags : List String) : Prop where
  properties : readFrontMatter file.content =
    some (propertyValues archivedAt article sourceUrl tags)
  found : ∀ url, directory.findSourceUrl url = some file.entry ↔ url = sourceUrl

/--
**An archived article is found for its URL and for no other**, unless its title has a separator
before `source_url:`, its URL has a separator, or an earlier file is found for the URL.
-/
theorem archived_iff {env : ArchiveEnv} (hfills : env.FillsTemplate) {archivedAt : Instant}
    {article : ExtractedArticle} {sourceUrl : String} {tags : List String}
    {directory : ArticlesDir} {before after : List DirectoryFile} {file : DirectoryFile}
    (hrender : renderArticleMarkdown env articleTemplateSource archivedAt article sourceUrl tags =
      .ok file.content)
    (hentry : isMarkdownName file.entry = true)
    (hdirectory : directory.files = before ++ file :: after) :
    Archived directory file archivedAt article sourceUrl tags ↔
      ¬ OpensSourceUrl article.title.toList ∧ sourceUrl.toList.any isSeparator = false ∧
        ¬ FoundBefore sourceUrl before := by
  obtain ⟨body, hcontent⟩ := render_content hfills hrender
  have hhas : ∀ url, file.hasSourceUrl url = true ↔
      fileSourceUrl file.content = some (utf16Units url) := by
    intro url
    simp [DirectoryFile.hasSourceUrl, hentry]
  have hfind : ∀ url, directory.findSourceUrl url = some file.entry ↔
      fileSourceUrl file.content = some (utf16Units url) ∧ ¬ FoundBefore url before := by
    intro url
    rw [findSourceUrl_iff hdirectory, hhas]
  rcases fileSourceUrl_content hcontent with ⟨hread, htitle, hurl⟩ | ⟨hread, hhidden⟩
  · constructor
    · intro h
      exact ⟨htitle, hurl, ((hfind sourceUrl).mp ((h.found sourceUrl).mpr rfl)).2⟩
    · rintro ⟨-, -, hfirst⟩
      refine ⟨readFrontMatter_render hcontent, fun url => ?_⟩
      rw [hfind, hread, Option.some.injEq, utf16Units_injective.eq_iff]
      constructor
      · rintro ⟨hsame, -⟩
        exact hsame.symm
      · rintro rfl
        exact ⟨rfl, hfirst⟩
  · constructor
    · intro h
      have hfound := ((hfind sourceUrl).mp ((h.found sourceUrl).mpr rfl)).1
      rw [hread] at hfound
      cases hfound
    · rintro ⟨htitle, hurl, -⟩
      rcases hhidden with hopens | hseparator
      · exact absurd hopens htitle
      · rw [hurl] at hseparator
        cases hseparator

/-! ### A directory with one article -/

namespace OneArticle

open SaveThrows (archiveEnv)

theorem fillsTemplate : archiveEnv.FillsTemplate := by
  intro data
  simp only [archiveEnv, if_true]

def article : ExtractedArticle := ⟨"", "Body text", "", "Title"⟩

def file (article : ExtractedArticle) (sourceUrl : String) : DirectoryFile where
  entry := "20260105-Title.md"
  content := trimText (fillArticle (templateData 1767600000000 article sourceUrl ["read"])) ++ "\n"

theorem file_rendered (article : ExtractedArticle) (sourceUrl : String) :
    renderArticleMarkdown archiveEnv articleTemplateSource 1767600000000 article sourceUrl ["read"] =
      .ok (file article sourceUrl).content := by
  rw [renderArticleMarkdown, fillsTemplate]
  rfl

def directory (article : ExtractedArticle) (sourceUrl : String) : ArticlesDir where
  files := [file article sourceUrl]
  nodup := List.nodup_singleton _

theorem archived_iff_title :
    Archived (directory article "https://example.com/a") (file article "https://example.com/a")
        1767600000000 article "https://example.com/a" ["read"] ↔
      ¬ OpensSourceUrl "Title".toList ∧ "https://example.com/a".toList.any isSeparator = false ∧
        ¬ FoundBefore "https://example.com/a" [] :=
  archived_iff fillsTemplate (file_rendered _ _) rfl rfl

/-- The lookup finds the file for no URL where the title or the URL hides it. -/
theorem findSourceUrl_hidden {article : ExtractedArticle} {sourceUrl : String}
    (h : OpensSourceUrl article.title.toList ∨ sourceUrl.toList.any isSeparator = true) (url : String) :
    (directory article sourceUrl).findSourceUrl url = none := by
  obtain ⟨body, hcontent⟩ := render_content fillsTemplate (file_rendered article sourceUrl)
  have hread : fileSourceUrl (file article sourceUrl).content = none := by
    rcases fileSourceUrl_content hcontent with ⟨-, htitle, hurl⟩ | ⟨hread, -⟩
    · rcases h with hopens | hseparator
      · exact absurd hopens htitle
      · rw [hurl] at hseparator
        cases hseparator
    · exact hread
  simp [ArticlesDir.findSourceUrl, directory, DirectoryFile.hasSourceUrl, hread]

def twoLines : ExtractedArticle := { article with title := "T\u2028source_url: x" }

/-- A separator in the URL ends its line, and one in the title begins a line before it. -/
theorem not_archived :
    ¬ Archived (directory article "https://example.com/a\u2028b")
        (file article "https://example.com/a\u2028b") 1767600000000 article
        "https://example.com/a\u2028b" ["read"] ∧
      ¬ Archived (directory twoLines "https://example.com/a") (file twoLines "https://example.com/a")
        1767600000000 twoLines "https://example.com/a" ["read"] := by
  have hnone : ∀ {article sourceUrl},
      OpensSourceUrl article.title.toList ∨ sourceUrl.toList.any isSeparator = true →
        ¬ Archived (directory article sourceUrl) (file article sourceUrl) 1767600000000 article
          sourceUrl ["read"] := by
    intro article sourceUrl h harchived
    have hfound := (harchived.found sourceUrl).mpr rfl
    rw [findSourceUrl_hidden h] at hfound
    cases hfound
  refine ⟨hnone (Or.inr ?_), hnone (Or.inl ⟨'\u2028', rfl, ['T'], [' ', 'x'], ?_⟩)⟩
  · decide +kernel
  · decide +kernel

end OneArticle

end InboxServer
