import InboxServer.Properties.FrontMatter
import InboxServer.Scripts.RepairFrontMatter

/-!
# The repair of front matter

* `repairDocument_spec` — the repair is the inverse of the damage that trimmed tags did to the
  template's output, and leaves sound files and its own output alone
-/

namespace InboxServer.Repair

open Json (quote escapeChar parseKind)

/-! ## What `JSON.parse` makes of the values -/

theorem parseKind_quote (s : String) : parseKind (quote s).toList = some .string := by
  have hread (n : Nat) : Json.readKind (n + 1) (quote s).toList = some (.string, []) := by
    rw [Json.readKind, Json.toList_quote, List.dropWhile_cons_of_neg (by decide)]
    simp only [Json.readLiteral_quote, Option.map_some]
  rw [parseKind, hread]
  rfl

theorem readKind_quote (n : Nat) (s : String) (rest : List Char) :
    Json.readKind (n + 1) ((quote s).toList ++ rest) = some (.string, rest) := by
  have htext : (quote s).toList ++ rest = '"' :: (s.toList.flatMap escapeChar ++ '"' :: rest) := by
    simp
  rw [Json.readKind, htext, List.dropWhile_cons_of_neg (by decide)]
  simp only [Json.readLiteral_quote, Option.map_some]

theorem readItems_quotes (tag : String) (tags : List String) {n : Nat} (hn : tags.length + 1 < n) :
    Json.readItems n ((quote tag).toList ++ (Json.commas (tags.map quote) ++ [']'])) = some [] := by
  induction n generalizing tag tags with
  | zero => exact absurd hn (Nat.not_lt_zero _)
  | succ n ih =>
    obtain ⟨n, rfl⟩ : ∃ m, n = m + 1 := ⟨n - 1, by omega⟩
    rw [Json.readItems, readKind_quote]
    simp only [Option.bind_some]
    cases tags with
    | nil => rfl
    | cons next tags =>
      have hcommas : Json.commas ((next :: tags).map quote) ++ [']'] =
          ',' :: ((quote next).toList ++ (Json.commas (tags.map quote) ++ [']'])) := by
        simp [Json.commas]
      rw [hcommas, List.dropWhile_cons_of_neg (by decide)]
      exact ih next tags (by simpa using hn)

/-- The list of tags is an array. -/
theorem parseKind_tags (tags : List String) :
    parseKind (jsonTags tags).stringify.toList = some .array := by
  cases tags with
  | nil => rfl
  | cons tag tags =>
    have hcommas := length_le_commas (tags.map quote)
    rw [List.length_map] at hcommas
    rw [parseKind, toList_tags, List.length_cons, List.length_append, List.length_append]
    generalize hfuel : 2 * ((quote tag).toList.length + ((Json.commas (tags.map quote)).length +
      [']'].length) + 1) + 2 = fuel
    obtain ⟨n, rfl⟩ : ∃ m, fuel = m + 1 := ⟨fuel - 1, by omega⟩
    have hitems := readItems_quotes tag tags (n := n) (by
      simp only [List.length_singleton] at hfuel
      omega)
    rw [Json.readKind, List.dropWhile_cons_of_neg (by decide)]
    simp only
    rw [Json.toList_quote, List.cons_append, List.dropWhile_cons_of_neg (by decide)]
    rw [Json.toList_quote, List.cons_append] at hitems
    split
    · next heq => exact absurd (List.cons.inj heq).1 (by decide)
    · rw [hitems]
      rfl

/-! ## What the scanner takes -/

/-- A character stands for itself, or is escaped by a backslash and something without either. -/
theorem escapeChar_shape (c : Char) :
    (escapeChar c = [c] ∧ c ≠ '"' ∧ c ≠ '\\') ∨
      ∃ d ds, escapeChar c = '\\' :: d :: ds ∧ ∀ e ∈ ds, e ≠ '"' ∧ e ≠ '\\' := by
  unfold escapeChar
  split_ifs with hquote hslash hback hfeed hline hreturn htab hcontrol
  · exact .inr ⟨_, [], rfl, by simp⟩
  · exact .inr ⟨_, [], rfl, by simp⟩
  · exact .inr ⟨_, [], rfl, by simp⟩
  · exact .inr ⟨_, [], rfl, by simp⟩
  · exact .inr ⟨_, [], rfl, by simp⟩
  · exact .inr ⟨_, [], rfl, by simp⟩
  · exact .inr ⟨_, [], rfl, by simp⟩
  · have hnumbers : ∀ n < 32, ∀ e ∈ (Json.escapeControl (Char.ofNat n)).drop 2,
        e ≠ '"' ∧ e ≠ '\\' := by
      intro n hn
      interval_cases n <;> simp [Json.escapeControl]
    have hc := hnumbers c.toNat hcontrol
    rw [Char.ofNat_toNat] at hc
    exact .inr ⟨_, _, rfl, hc⟩
  · exact .inl ⟨rfl, hquote, hslash⟩

/-- What is taken, with something in front of it. -/
def onto (text : List Char) (taken : List Char × List Char) : List Char × List Char :=
  (text ++ taken.1, taken.2)

theorem onto_nil : onto [] = id := rfl

theorem onto_comp_prepend (c : Char) (text : List Char) : prepend c ∘ onto text = onto (c :: text) := rfl

theorem onto_comp_onto (first second : List Char) : onto first ∘ onto second = onto (first ++ second) := by
  funext taken
  simp [onto]

/-- The characters of a string that need no care are passed over. -/
theorem takeString_plain {text : List Char} (h : ∀ c ∈ text, c ≠ '"' ∧ c ≠ '\\') (rest : List Char) :
    takeString false (text ++ rest) = (takeString false rest).map (onto text) := by
  induction text with
  | nil => rw [onto_nil, Option.map_id]; rfl
  | cons c text ih =>
    obtain ⟨hquote, hslash⟩ := h c List.mem_cons_self
    rw [List.cons_append, takeString, if_neg hslash, if_neg hquote,
      ih fun d hd => h d (List.mem_cons_of_mem _ hd), Option.map_map, onto_comp_prepend]

/-- What is escaped does not end a string. -/
theorem takeString_escaped (text rest : List Char) :
    takeString false (text.flatMap escapeChar ++ rest) =
      (takeString false rest).map (onto (text.flatMap escapeChar)) := by
  induction text with
  | nil => rw [List.flatMap_nil, onto_nil, Option.map_id]; rfl
  | cons c text ih =>
    rw [List.flatMap_cons, List.append_assoc]
    rcases escapeChar_shape c with ⟨hself, hplain⟩ | ⟨d, ds, hescape, hplain⟩
    · rw [hself, takeString_plain (by simpa using hplain), ih, Option.map_map, onto_comp_onto]
    · rw [hescape, List.cons_append, List.cons_append, takeString, if_pos rfl, takeString,
        takeString_plain hplain, ih, Option.map_map, Option.map_map, Option.map_map]
      congr 1
      funext taken
      simp [onto, prepend]

/-- In an array a string is passed over. -/
theorem takeArray_plain {text : List Char} (h : ∀ c ∈ text, c ≠ '"' ∧ c ≠ '\\') (depth : Nat)
    (rest : List Char) :
    takeArray depth true false (text ++ rest) = (takeArray depth true false rest).map (onto text) := by
  induction text with
  | nil => rw [onto_nil, Option.map_id]; rfl
  | cons c text ih =>
    obtain ⟨hquote, hslash⟩ := h c List.mem_cons_self
    rw [List.cons_append, takeArray, if_neg Bool.false_ne_true, if_neg hslash, if_neg hquote,
      ih fun d hd => h d (List.mem_cons_of_mem _ hd), Option.map_map, onto_comp_prepend]

theorem takeArray_escaped (text : List Char) (depth : Nat) (rest : List Char) :
    takeArray depth true false (text.flatMap escapeChar ++ rest) =
      (takeArray depth true false rest).map (onto (text.flatMap escapeChar)) := by
  induction text with
  | nil => rw [List.flatMap_nil, onto_nil, Option.map_id]; rfl
  | cons c text ih =>
    rw [List.flatMap_cons, List.append_assoc]
    rcases escapeChar_shape c with ⟨hself, hplain⟩ | ⟨d, ds, hescape, hplain⟩
    · rw [hself, takeArray_plain (by simpa using hplain), ih, Option.map_map, onto_comp_onto]
    · rw [hescape, List.cons_append, List.cons_append, takeArray, if_neg Bool.false_ne_true,
        if_pos rfl, takeArray, if_pos rfl, takeArray_plain hplain, ih, Option.map_map,
        Option.map_map, Option.map_map]
      congr 1
      funext taken
      simp [onto, prepend]

/-- A quoted text in an array is taken as a whole. -/
theorem takeArray_quote (s : String) (depth : Nat) (rest : List Char) :
    takeArray depth false false ((quote s).toList ++ rest) =
      (takeArray depth false false rest).map (onto (quote s).toList) := by
  have htext : (quote s).toList ++ rest = '"' :: (s.toList.flatMap escapeChar ++ '"' :: rest) := by
    simp
  rw [htext, takeArray, if_pos rfl, takeArray_escaped, takeArray, if_neg Bool.false_ne_true,
    if_neg (by decide), if_pos rfl, Option.map_map, Option.map_map]
  congr 1
  funext taken
  simp [onto, prepend]

/-- The array ends behind its last item. -/
theorem takeArray_commas (texts : List String) (rest : List Char) :
    takeArray 1 false false (Json.commas (texts.map quote) ++ ']' :: rest) =
      some (Json.commas (texts.map quote) ++ [']'], rest) := by
  induction texts with
  | nil => rfl
  | cons text texts ih =>
    have hcommas : Json.commas ((text :: texts).map quote) =
        ',' :: ((quote text).toList ++ Json.commas (texts.map quote)) := rfl
    rw [hcommas, List.cons_append, List.append_assoc, takeArray, if_neg (by decide),
      if_neg (by decide), if_neg (by decide), takeArray_quote, ih]
    simp [onto, prepend]

/-- A field with a string ends behind it. -/
theorem takeField_quote (s : String) (rest : List Char) :
    takeField .string ((quote s).toList ++ rest) = .ok ((quote s).toList, rest) := by
  have hvalue : takeJsonValue ((quote s).toList ++ rest) = .ok ((quote s).toList, rest) := by
    have htext : (quote s).toList ++ rest = '"' :: (s.toList.flatMap escapeChar ++ '"' :: rest) := by
      simp
    rw [htext, takeJsonValue, takeString_escaped, takeString, if_neg (by decide), if_pos rfl]
    simp [onto, prepend]
  rw [takeField, hvalue]
  simp only [parseKind_quote]

/-- A field with tags ends behind them. -/
theorem takeField_tags (tags : List String) (rest : List Char) :
    takeField .array ((jsonTags tags).stringify.toList ++ rest) =
      .ok ((jsonTags tags).stringify.toList, rest) := by
  have hvalue : takeJsonValue ((jsonTags tags).stringify.toList ++ rest) =
      .ok ((jsonTags tags).stringify.toList, rest) := by
    cases tags with
    | nil => rfl
    | cons tag tags =>
      rw [toList_tags, List.cons_append, List.append_assoc, List.append_assoc, List.singleton_append,
        takeJsonValue, takeArray, if_neg (by decide), if_pos rfl, takeArray_quote, takeArray_commas]
      rfl
  rw [takeField, hvalue]
  simp only [parseKind_tags]

/-! ## What is taken of itself -/

theorem map_prepend_eq_some {c : Char} {next : Option (List Char × List Char)}
    {taken rest : List Char} (h : next.map (prepend c) = some (taken, rest)) :
    ∃ taken', next = some (taken', rest) ∧ taken = c :: taken' := by
  obtain ⟨⟨taken', rest'⟩, hnext, heq⟩ := Option.map_eq_some_iff.mp h
  obtain ⟨rfl, rfl⟩ := Prod.mk.inj heq
  exact ⟨taken', hnext, rfl⟩

/-- What is taken is the front of the text, and all that is taken of it. -/
theorem takeString_split {escaped : Bool} {text taken rest : List Char}
    (h : takeString escaped text = some (taken, rest)) :
    text = taken ++ rest ∧ takeString escaped taken = some (taken, []) := by
  fun_induction takeString escaped text generalizing taken rest with
  | case1 => cases h
  | case2 c text ih =>
    obtain ⟨taken, hnext, rfl⟩ := map_prepend_eq_some h
    obtain ⟨rfl, hagain⟩ := ih hnext
    exact ⟨rfl, by rw [takeString, hagain]; rfl⟩
  | case3 text ih =>
    obtain ⟨taken, hnext, rfl⟩ := map_prepend_eq_some h
    obtain ⟨rfl, hagain⟩ := ih hnext
    exact ⟨rfl, by rw [takeString, if_pos rfl, hagain]; rfl⟩
  | case4 text hslash =>
    cases h
    exact ⟨rfl, rfl⟩
  | case5 c text hslash hquote ih =>
    obtain ⟨taken, hnext, rfl⟩ := map_prepend_eq_some h
    obtain ⟨rfl, hagain⟩ := ih hnext
    exact ⟨rfl, by rw [takeString, if_neg hslash, if_neg hquote, hagain]; rfl⟩

/-- An array that is taken is the beginning of its text, and is taken alone as well. -/
theorem takeArray_split {depth : Nat} {inString escaped : Bool} {text taken rest : List Char}
    (h : takeArray depth inString escaped text = some (taken, rest)) :
    text = taken ++ rest ∧ takeArray depth inString escaped taken = some (taken, []) := by
  fun_induction takeArray depth inString escaped text generalizing taken rest with
  | case1 => cases h
  | case2 depth c text ih =>
    obtain ⟨taken, hnext, rfl⟩ := map_prepend_eq_some h
    obtain ⟨rfl, hagain⟩ := ih hnext
    exact ⟨rfl, by rw [takeArray, if_pos rfl, hagain]; rfl⟩
  | case3 depth escaped text hescaped ih =>
    obtain ⟨taken, hnext, rfl⟩ := map_prepend_eq_some h
    obtain ⟨rfl, hagain⟩ := ih hnext
    exact ⟨rfl, by rw [takeArray, if_neg hescaped, if_pos rfl, hagain]; rfl⟩
  | case4 depth escaped text hescaped hslash ih =>
    obtain ⟨taken, hnext, rfl⟩ := map_prepend_eq_some h
    obtain ⟨rfl, hagain⟩ := ih hnext
    exact ⟨rfl, by rw [takeArray, if_neg hescaped, if_neg hslash, if_pos rfl, hagain]; rfl⟩
  | case5 depth escaped c text hescaped hslash hquote ih =>
    obtain ⟨taken, hnext, rfl⟩ := map_prepend_eq_some h
    obtain ⟨rfl, hagain⟩ := ih hnext
    exact ⟨rfl, by rw [takeArray, if_neg hescaped, if_neg hslash, if_neg hquote, hagain]; rfl⟩
  | case6 depth escaped text ih =>
    obtain ⟨taken, hnext, rfl⟩ := map_prepend_eq_some h
    obtain ⟨rfl, hagain⟩ := ih hnext
    exact ⟨rfl, by rw [takeArray, if_pos rfl, hagain]; rfl⟩
  | case7 depth escaped text hquote ih =>
    obtain ⟨taken, hnext, rfl⟩ := map_prepend_eq_some h
    obtain ⟨rfl, hagain⟩ := ih hnext
    exact ⟨rfl, by rw [takeArray, if_neg hquote, if_pos rfl, hagain]; rfl⟩
  | case8 depth escaped text hdepth hquote hopen =>
    cases h
    exact ⟨rfl, by rw [takeArray, if_neg hquote, if_neg hopen, if_pos rfl, if_pos hdepth]⟩
  | case9 depth escaped text hquote hopen hdepth ih =>
    obtain ⟨taken, hnext, rfl⟩ := map_prepend_eq_some h
    obtain ⟨rfl, hagain⟩ := ih hnext
    exact ⟨rfl, by rw [takeArray, if_neg hquote, if_neg hopen, if_pos rfl, if_neg hdepth, hagain]; rfl⟩
  | case10 depth escaped c text hquote hopen hclose ih =>
    obtain ⟨taken, hnext, rfl⟩ := map_prepend_eq_some h
    obtain ⟨rfl, hagain⟩ := ih hnext
    exact ⟨rfl, by rw [takeArray, if_neg hquote, if_neg hopen, if_neg hclose, hagain]; rfl⟩

theorem takeJsonValue_split {source taken rest : List Char}
    (h : takeJsonValue source = .ok (taken, rest)) :
    source = taken ++ rest ∧ takeJsonValue taken = .ok (taken, []) := by
  unfold takeJsonValue at h
  split at h
  next text =>
    split at h
    next value hvalue =>
      obtain ⟨rfl, rfl⟩ := Prod.mk.inj (Except.ok.inj h)
      obtain ⟨hsplit, hagain⟩ := takeString_split hvalue
      exact ⟨congrArg (List.cons '"') hsplit, by rw [takeJsonValue, hagain]; rfl⟩
    next => cases h
  next text =>
    split at h
    next value hvalue =>
      obtain rfl := Except.ok.inj h
      obtain ⟨hsplit, hagain⟩ := takeArray_split hvalue
      refine ⟨hsplit, ?_⟩
      cases taken with
      | nil => cases hagain
      | cons c taken =>
        obtain rfl := (List.cons.inj hsplit).1
        rw [takeJsonValue, hagain]
    next => cases h
  next => cases h

theorem takeField_split {expectedType : ExpectedType} {source taken rest : List Char}
    (h : takeField expectedType source = .ok (taken, rest)) :
    source = taken ++ rest ∧ takeField expectedType taken = .ok (taken, []) := by
  unfold takeField at h
  split at h
  next => cases h
  next value hvalue =>
    split at h
    next => cases h
    next hkind =>
      obtain rfl := Except.ok.inj h
      obtain ⟨hsplit, hagain⟩ := takeJsonValue_split hvalue
      refine ⟨hsplit, ?_⟩
      rw [takeField, hagain]
      dsimp only at hkind ⊢
      rw [hkind]
    next hkind =>
      obtain rfl := Except.ok.inj h
      obtain ⟨hsplit, hagain⟩ := takeJsonValue_split hvalue
      refine ⟨hsplit, ?_⟩
      rw [takeField, hagain]
      dsimp only at hkind ⊢
      rw [hkind]
    next => cases h

/-! ## The documents -/

theorem afterLabel_append (label : String) (rest : List Char) :
    afterLabel label (label.toList ++ rest) = some rest := by
  rw [afterLabel, if_pos (by simp), List.drop_left]

/-- What follows a label follows it in the text. -/
theorem afterLabel_eq_some {label : String} {source rest : List Char}
    (h : afterLabel label source = some rest) : source = label.toList ++ rest := by
  unfold afterLabel at h
  split at h
  next hopens =>
    obtain ⟨rest', rfl⟩ := List.isPrefixOf_iff_prefix.mp hopens
    rw [List.drop_left] at h
    rw [Option.some.inj h]
  next => cases h

/-- Fields that stand one after the other are taken one after the other. -/
theorem takeFields_append {fields : List (String × ExpectedType)} {rawValues : List (List Char)}
    (h : List.Forall₂ (fun field raw => ∀ rest, takeField field.2 (raw ++ rest) = .ok (raw, rest))
      fields rawValues) (rest : List Char) :
    takeFields fields ((List.zipWith (fun field raw => field.1.toList ++ raw) fields rawValues).flatten ++
      rest) = .ok (rawValues, rest) := by
  induction h with
  | nil => rfl
  | @cons field raw fields rawValues htake _ ih =>
    obtain ⟨label, expectedType⟩ := field
    rw [List.zipWith_cons_cons, List.flatten_cons, List.append_assoc, List.append_assoc, takeFields,
      afterLabel_append]
    simp only [htake, ih]

/-- The front matter of an article, any texts for its fields. -/
structure FrontMatter where
  title : String
  sourceUrl : String
  archivedAt : String
  author : String
  publishedAt : String
  tags : List String

namespace FrontMatter

/-- What the template gets. -/
def data (matter : FrontMatter) (markdown : String) : Entries String :=
  [("archived_at_yaml", yamlScalar matter.archivedAt), ("author_yaml", yamlScalar matter.author),
    ("markdown", trimText markdown), ("published_at_yaml", yamlScalar matter.publishedAt),
    ("source_url_yaml", yamlScalar matter.sourceUrl), ("tags_yaml", (jsonTags matter.tags).stringify),
    ("title_yaml", yamlScalar matter.title)]

/-- The values in the order of the fields. -/
def values (matter : FrontMatter) : List String :=
  [yamlScalar matter.title, yamlScalar matter.sourceUrl, yamlScalar matter.archivedAt,
    yamlScalar matter.author, yamlScalar matter.publishedAt, (jsonTags matter.tags).stringify]

/-- `renderArticleMarkdown` of a template. -/
def render (template : List TemplatePiece) (matter : FrontMatter) (markdown : String) : String :=
  trimText (String.join (template.map (TemplatePiece.fill (matter.data markdown)))) ++ "\n"

end FrontMatter

theorem renderArticleMarkdown_eq {env : ArchiveEnv} (hfills : env.FillsTemplate) (archivedAt : Instant)
    (article : ExtractedArticle) (sourceUrl : String) (tags : List String) :
    renderArticleMarkdown env articleTemplateSource archivedAt article sourceUrl tags =
      .ok (FrontMatter.render articleTemplate ⟨article.title, sourceUrl, toISOString archivedAt,
        article.author, article.publishedAt, tags⟩ article.markdown) := by
  rw [renderArticleMarkdown, hfills]
  rfl

/-- The template whose first tags have each lost the newline after them. -/
def loseNewlines : Nat → List TemplatePiece → List TemplatePiece
  | n + 1, .raw name :: .text text :: rest =>
    .raw name :: .text (String.ofList text.toList.tail) :: loseNewlines n rest
  | n + 1, piece :: rest => piece :: loseNewlines (n + 1) rest
  | _, pieces => pieces

def damagedTemplate : List TemplatePiece := loseNewlines 6 articleTemplate

/-! ## What the template makes -/

namespace FrontMatter

/-- The line of each field. -/
def fieldLines (matter : FrontMatter) : List (List Char) :=
  List.zipWith (fun field value => field.1.toList ++ value.toList) fields matter.values

/-- What comes after the line of the closing fence. -/
def body (markdown : String) : List Char :=
  (trimEnd ('\n' :: '\n' :: ((trimText markdown).toList ++ ['\n'])) ++ ['\n']).tail

theorem newline_not_mem_fieldLines (matter : FrontMatter) : ∀ line ∈ matter.fieldLines, '\n' ∉ line := by
  intro line hline
  simp only [fieldLines, fields, values, List.zipWith_cons_cons, List.zipWith_nil_right,
    List.mem_cons, List.not_mem_nil, or_false] at hline
  rcases hline with rfl | rfl | rfl | rfl | rfl | rfl <;>
    simp [yamlScalar, newline_not_mem_quote, newline_not_mem_tags, -Json.toList_quote]

/-- A template that opens and closes with a fence, and has the body as the article's has it. -/
theorem render_toList {template : List TemplatePiece} {matter : FrontMatter} {markdown : String}
    (middle : List Char)
    (h : (String.join (template.map (TemplatePiece.fill (matter.data markdown)))).toList =
      '-' :: (middle ++ '-' :: '\n' :: '\n' :: ((trimText markdown).toList ++ ['\n']))) :
    (matter.render template markdown).toList = '-' :: (middle ++ '-' :: '\n' :: body markdown) := by
  have htext := String.ofList_toList (s := String.join (template.map
    (TemplatePiece.fill (matter.data markdown))))
  have hbody : trimEnd ('\n' :: '\n' :: ((trimText markdown).toList ++ ['\n'])) ++ ['\n'] =
      '\n' :: body markdown := by
    have hkept := prefix_trimEnd ('\n' :: '\n' :: ((trimText markdown).toList ++ ['\n']))
    rw [body]
    cases htrim : trimEnd ('\n' :: '\n' :: ((trimText markdown).toList ++ ['\n'])) with
    | nil => rfl
    | cons c kept =>
      rw [htrim] at hkept
      rw [(List.cons_prefix_cons.mp hkept).1]
      rfl
  rw [render, String.toList_append, ← htext, h, trimText_middle rfl rfl, List.cons_append,
    List.append_assoc, List.cons_append]
  exact congrArg (fun rest => '-' :: (middle ++ '-' :: rest)) hbody

theorem render_articleTemplate (matter : FrontMatter) (markdown : String) :
    (matter.render articleTemplate markdown).toList =
      joinLines (fence :: (matter.fieldLines ++ [fence])) ++ body markdown := by
  rw [render_toList ('-' :: '-' :: '\n' :: (joinLines matter.fieldLines ++ ['-', '-']))]
  · simp [joinLines, fence]
  · simp [articleTemplate, data, TemplatePiece.fill, List.lookup, fieldLines, fields, values,
      joinLines, String.join]

theorem render_damagedTemplate (matter : FrontMatter) (markdown : String) :
    (matter.render damagedTemplate markdown).toList =
      joinLines [fence, matter.fieldLines.flatten ++ fence] ++ body markdown := by
  rw [render_toList ('-' :: '-' :: '\n' :: (matter.fieldLines.flatten ++ ['-', '-']))]
  · simp [joinLines, fence]
  · simp [damagedTemplate, loseNewlines, articleTemplate, data, TemplatePiece.fill, List.lookup,
      fieldLines, fields, values, String.join]

end FrontMatter

/-! ## What the repair makes of it -/

/-- A document whose first line is a fence. -/
theorem repairDocument_lines {line : List Char} (hline : '\n' ∉ line) (rest : List Char) :
    repairDocument (joinLines [fence, line] ++ rest) =
      match afterLabel "title: " line with
      | none => .ok none
      | some source =>
        match takeField .string source with
        | .error error => .error error
        | .ok (raw, source) =>
          if (afterLabel "source_url: " source).isNone then .ok none
          else
            match takeFields fields.tail source with
            | .error error => .error error
            | .ok (rawValues, source) =>
              if source ≠ "---".toList then .error .invalidFrontmatterTerminator
              else
                .ok (some ("---\n".toList ++ (frontmatter (raw :: rawValues) ++
                  ("\n---\n".toList ++ rest)))) := by
  have hcontent : joinLines [fence, line] ++ rest = "---\n".toList ++ (line ++ '\n' :: rest) := by
    simp [joinLines, fence]
  have hne : ∀ c ∈ line, decide (c ≠ '\n') = true := by
    intro c hc
    rw [decide_eq_true_eq]
    rintro rfl
    exact hline hc
  have htake : (line ++ '\n' :: rest).takeWhile (· ≠ '\n') = line := by
    rw [List.takeWhile_append_of_pos hne, List.takeWhile_cons_of_neg (by simp), List.append_nil]
  have hdrop : (line ++ '\n' :: rest).dropWhile (· ≠ '\n') = '\n' :: rest := by
    rw [List.dropWhile_append_of_pos hne, List.dropWhile_cons_of_neg (by simp)]
  rw [repairDocument, hcontent, afterLabel_append]
  simp only [htake, hdrop, List.tail_cons]
  exact if_neg (by simp)

/-- A first field that stands alone is left alone. -/
theorem repairDocument_alone {raw : List Char} (hraw : '\n' ∉ raw)
    (htake : takeField .string raw = .ok (raw, [])) (rest : List Char) :
    repairDocument (joinLines [fence, "title: ".toList ++ raw] ++ rest) = .ok none := by
  rw [repairDocument_lines (by simp [hraw]), afterLabel_append]
  simp only [htake]
  rfl

theorem repairDocument_rendered (matter : FrontMatter) (markdown : String) :
    repairDocument (matter.render articleTemplate markdown).toList = .ok none := by
  have htake := takeField_quote matter.title []
  rw [List.append_nil] at htake
  have halone := repairDocument_alone (newline_not_mem_quote matter.title) htake
    (joinLines (matter.fieldLines.tail ++ [fence]) ++ FrontMatter.body markdown)
  rw [FrontMatter.render_articleTemplate, ← halone]
  simp [joinLines, FrontMatter.fieldLines, FrontMatter.values, fields, yamlScalar, fence]

/-- The values of an article are taken as the fields of their types. -/
theorem takeField_values (matter : FrontMatter) :
    List.Forall₂ (fun (field : String × ExpectedType) raw =>
      ∀ rest, takeField field.2 (raw ++ rest) = .ok (raw, rest)) fields
      (matter.values.map String.toList) :=
  .cons (takeField_quote _) (.cons (takeField_quote _) (.cons (takeField_quote _)
    (.cons (takeField_quote _) (.cons (takeField_quote _) (.cons (takeField_tags _) .nil)))))

/-- A damaged document is repaired to the sound one. -/
theorem repairDocument_damaged (matter : FrontMatter) (markdown : String) :
    repairDocument (matter.render damagedTemplate markdown).toList =
      .ok (some (matter.render articleTemplate markdown).toList) := by
  have hline : '\n' ∉ matter.fieldLines.flatten ++ fence := by
    simp only [List.mem_append, List.mem_flatten, not_or, not_exists, not_and]
    exact ⟨matter.newline_not_mem_fieldLines, by decide⟩
  generalize hothers : (List.zipWith (fun field raw => field.1.toList ++ raw) fields.tail
    (matter.values.map String.toList).tail).flatten ++ fence = others
  have hfirst : matter.fieldLines.flatten ++ fence =
      "title: ".toList ++ ((quote matter.title).toList ++ others) := by
    rw [← hothers]
    simp [FrontMatter.fieldLines, fields, FrontMatter.values, yamlScalar]
  have hsecond : (afterLabel "source_url: " others).isNone = false := by
    have hlabel : ∃ rest, others = "source_url: ".toList ++ rest := by
      refine ⟨(quote matter.sourceUrl).toList ++ ((List.zipWith (fun field raw =>
        field.1.toList ++ raw) fields.tail.tail (matter.values.map String.toList).tail.tail).flatten ++
          fence), ?_⟩
      rw [← hothers]
      simp [fields, FrontMatter.values, yamlScalar]
    obtain ⟨rest, rfl⟩ := hlabel
    rw [afterLabel_append]
    rfl
  have htail := takeFields_append (List.forall₂_cons.mp (takeField_values matter)).2 fence
  have htake : takeFields fields.tail others =
      .ok ((matter.values.map String.toList).tail, fence) := by
    rw [← hothers]
    exact htail
  rw [FrontMatter.render_damagedTemplate, repairDocument_lines hline, hfirst, afterLabel_append]
  simp only [takeField_quote, hsecond, htake, Bool.false_eq_true, if_false]
  have hfence : fence = "---".toList := by simp [fence]
  rw [if_neg (not_not_intro hfence), FrontMatter.render_articleTemplate]
  simp [frontmatter, fields, FrontMatter.values, FrontMatter.fieldLines, joinLines, fence, yamlScalar]

/-- What the repair returns has its first field alone on a line. -/
theorem repairDocument_repaired {content output : List Char}
    (h : repairDocument content = .ok (some output)) : repairDocument output = .ok none := by
  unfold repairDocument at h
  split at h
  next => cases h
  next rest hrest =>
    split at h
    next => cases h
    next =>
      dsimp only at h
      split at h
      next => cases h
      next source hsource =>
        split at h
        next => cases h
        next raw source' htake =>
          split at h
          next => cases h
          next =>
            split at h
            next => cases h
            next rawValues source'' htakeFields =>
              split at h
              next => cases h
              next =>
                have houtput := Option.some.inj (Except.ok.inj h)
                obtain ⟨rfl, hagain⟩ := takeField_split htake
                have hraw : '\n' ∉ raw := by
                  intro hmem
                  have hline := afterLabel_eq_some hsource
                  have hin : '\n' ∈ rest.takeWhile (· ≠ '\n') := by
                    rw [hline]
                    simp [hmem]
                  simpa using List.mem_takeWhile_imp hin
                -- the next line begins after the first field, or the closing fence does
                have hfront : ∃ more, frontmatter (raw :: rawValues) ++ ("\n---\n".toList ++
                    (rest.dropWhile (· ≠ '\n')).tail) = "title: ".toList ++ raw ++ '\n' :: more := by
                  cases rawValues with
                  | nil => exact ⟨_, by simp [frontmatter, fields]; rfl⟩
                  | cons next rawValues => exact ⟨_, by simp [frontmatter, fields]; rfl⟩
                obtain ⟨more, hmore⟩ := hfront
                rw [← repairDocument_alone hraw hagain more, ← houtput, hmore]
                simp [joinLines, fence]

/--
**The repair is the inverse of the damage.** Of a document that has lost the newline after each
front-matter tag it makes what the template makes undamaged; it leaves the template's output and its
own output alone; and it throws on none of them.
-/
theorem repairDocument_spec (matter : FrontMatter) (markdown : String) :
    repairDocument (matter.render damagedTemplate markdown).toList =
        .ok (some (matter.render articleTemplate markdown).toList) ∧
      repairDocument (matter.render articleTemplate markdown).toList = .ok none ∧
      ∀ content output, repairDocument content = .ok (some output) →
        repairDocument output = .ok none :=
  ⟨repairDocument_damaged matter markdown, repairDocument_rendered matter markdown,
    fun _ _ => repairDocument_repaired⟩

end InboxServer.Repair
