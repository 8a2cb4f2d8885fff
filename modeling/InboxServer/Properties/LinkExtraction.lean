import InboxServer.Worker.CollectorParsers

/-!
# Links that are read off a text

* `extractUrlTitlePairs_iff` — when the pairs that are found in a text of Markdown links are exactly
  the links
-/

namespace InboxServer

/-! ## Scans -/

section Scans

variable {α : Type} {pattern : List Char → Option (α × List Char)}

/-- What a pattern leaves is a proper suffix. -/
def Consumes (pattern : List Char → Option (α × List Char)) : Prop :=
  ∀ text found rest, pattern text = some (found, rest) → rest.length < text.length

/-- `text.matchAll(pattern)`, with fuel for the whole text. -/
def scan (pattern : List Char → Option (α × List Char)) (text : List Char) : List α :=
  matchAll pattern text.length text

/-- As many rounds as there are characters find everything. -/
theorem matchAll_fuel (hpattern : Consumes pattern) {fuel : Nat} {text : List Char}
    (h : text.length ≤ fuel) : matchAll pattern fuel text = scan pattern text := by
  induction fuel using Nat.strongRecOn generalizing text with
  | ind fuel ih =>
    rcases text with _ | ⟨c, text⟩
    · cases fuel <;> rfl
    · obtain ⟨fuel, rfl⟩ : ∃ n, fuel = n + 1 := ⟨fuel - 1, by simp at h; omega⟩
      rw [List.length_cons] at h
      rw [scan, List.length_cons, matchAll, matchAll]
      split
      · next found rest hmatch =>
        have hlt := hpattern _ _ _ hmatch
        rw [List.length_cons] at hlt
        rw [ih fuel (by omega) (by omega)]
        by_cases hle : text.length < fuel + 1
        · rw [ih text.length hle (by omega)]
        · omega
      · rw [ih fuel (by omega) (by omega), scan]

/-- A match is taken, and the scan goes on behind it; or else behind the first character. -/
theorem scan_cons (hpattern : Consumes pattern) (c : Char) (text : List Char) :
    scan pattern (c :: text) = match pattern (c :: text) with
      | some (found, rest) => found :: scan pattern rest
      | none => scan pattern text := by
  rw [scan, List.length_cons, matchAll]
  cases hmatch : pattern (c :: text) with
  | none => rfl
  | some match' =>
    have hlt := hpattern _ _ _ hmatch
    rw [List.length_cons] at hlt
    dsimp only
    rw [matchAll_fuel hpattern (by omega)]

/-- Text in which no match starts is passed over. -/
theorem scan_append (hpattern : Consumes pattern) (skipped rest : List Char)
    (h : ∀ part, part ≠ [] → part <:+ skipped → pattern (part ++ rest) = none) :
    scan pattern (skipped ++ rest) = scan pattern rest := by
  induction skipped with
  | nil => rfl
  | cons c skipped ih =>
    rw [List.cons_append, scan_cons hpattern, ← List.cons_append,
      h (c :: skipped) (List.cons_ne_nil _ _) List.suffix_rfl]
    exact ih fun part hne hpart => h part hne (hpart.trans (List.suffix_cons _ _))

/-- What is found was matched somewhere. -/
theorem match_of_mem_scan (hpattern : Consumes pattern) {text : List Char} {found : α}
    (h : found ∈ scan pattern text) : ∃ part rest, pattern part = some (found, rest) := by
  induction hlength : text.length using Nat.strongRecOn generalizing text with
  | ind n ih =>
    rcases text with _ | ⟨c, text⟩
    · cases h
    · rw [scan_cons hpattern] at h
      cases hmatch : pattern (c :: text) with
      | none =>
        rw [hmatch] at h
        exact ih text.length (by rw [← hlength]; simp) h rfl
      | some first =>
        have hlt := hpattern _ _ _ hmatch
        rw [hmatch] at h
        rcases List.mem_cons.mp h with rfl | h
        · exact ⟨_, _, hmatch⟩
        · exact ih first.2.length (by omega) h rfl

end Scans

/-! ## URLs -/

/-- The scheme that was stripped is one of the two, and was in front. -/
theorem stripScheme_eq {text scheme rest : List Char} (h : stripScheme text = some (scheme, rest)) :
    text = scheme ++ rest ∧ (scheme = "https://".toList ∨ scheme = "http://".toList) := by
  unfold stripScheme at h
  obtain ⟨found, hfound, hsome⟩ := List.exists_of_findSome?_eq_some h
  split at hsome
  · next hopens =>
    cases hsome
    obtain ⟨rest, rfl⟩ := List.isPrefixOf_iff_prefix.mp hopens
    exact ⟨by simp, by simpa using hfound⟩
  · cases hsome

/-- A scheme in front is stripped. -/
theorem stripScheme_append {scheme : List Char} (rest : List Char)
    (h : scheme = "https://".toList ∨ scheme = "http://".toList) :
    stripScheme (scheme ++ rest) = some (scheme, rest) := by
  have hhttps : "https://".toList = ['h', 't', 't', 'p', 's', ':', '/', '/'] := rfl
  have hhttp : "http://".toList = ['h', 't', 't', 'p', ':', '/', '/'] := rfl
  rcases h with rfl | rfl
  · simp only [stripScheme, hhttps, List.findSome?_cons]
    rfl
  · simp only [stripScheme, hhttps, hhttp, List.findSome?_cons]
    rfl

/-- The match of a URL takes something. -/
theorem matchUrl_consumes (allowed : Char → Bool) : Consumes (matchUrl allowed) := by
  intro text found rest h
  unfold matchUrl at h
  split at h
  · cases h
  · next scheme after hscheme =>
    obtain ⟨rfl, hkind⟩ := stripScheme_eq hscheme
    split at h
    · cases h
    · cases h
      have hle := (List.dropWhile_suffix (l := after) allowed).length_le
      have hpos : 0 < scheme.length := by rcases hkind with rfl | rfl <;> simp
      rw [List.length_append]
      omega

/-- A URL that is matched is a scheme and allowed characters. -/
theorem matchUrl_eq_some {allowed : Char → Bool} {text found rest : List Char}
    (h : matchUrl allowed text = some (found, rest)) :
    ∃ scheme part, found = scheme ++ part ∧ (scheme = "https://".toList ∨ scheme = "http://".toList) ∧
      part ≠ [] ∧ (∀ c ∈ part, allowed c = true) ∧ text = found ++ rest := by
  unfold matchUrl at h
  split at h
  · cases h
  · next scheme after hscheme =>
    obtain ⟨rfl, hkind⟩ := stripScheme_eq hscheme
    split at h
    · cases h
    · next hne =>
      cases h
      refine ⟨scheme, after.takeWhile allowed, rfl, hkind, by simpa using hne,
        fun c hc => List.mem_takeWhile_imp hc, ?_⟩
      rw [List.append_assoc, List.takeWhile_append_dropWhile]

/-- The characters of a scheme. -/
def isSchemeChar (c : Char) : Bool := c ∈ ['h', 't', 'p', 's', ':', '/']

theorem isSchemeChar_of_mem {scheme : List Char} {c : Char}
    (h : scheme = "https://".toList ∨ scheme = "http://".toList) (hc : c ∈ scheme) :
    isSchemeChar c = true := by
  have hhttps : "https://".toList.all isSchemeChar = true := by decide +kernel
  have hhttp : "http://".toList.all isSchemeChar = true := by decide +kernel
  rcases h with rfl | rfl
  · exact List.all_eq_true.mp hhttps c hc
  · exact List.all_eq_true.mp hhttp c hc

/-- Whether a scheme is in front is settled before a character that is in none. -/
theorem stripScheme_stop {stop : Char} (hstop : isSchemeChar stop = false) (text rest : List Char) :
    stripScheme (text ++ stop :: rest) =
      (stripScheme text).map fun found => (found.1, found.2 ++ stop :: rest) := by
  cases htext : stripScheme text with
  | some found =>
    obtain ⟨rfl, hkind⟩ := stripScheme_eq htext
    rw [List.append_assoc, stripScheme_append _ hkind]
    rfl
  | none =>
    cases hlong : stripScheme (text ++ stop :: rest) with
    | none => rfl
    | some found =>
      obtain ⟨heq, hkind⟩ := stripScheme_eq hlong
      -- the scheme ends before the character it cannot hold
      rcases List.append_eq_append_iff.mp heq with ⟨more, hscheme, hmore⟩ | ⟨more, rfl, hmore⟩
      · rcases more with _ | ⟨d, more⟩
        · rw [List.append_nil] at hscheme
          rw [← List.append_nil text, ← hscheme, stripScheme_append _ hkind] at htext
          cases htext
        · obtain ⟨rfl, -⟩ := List.cons.inj hmore
          have hmem := isSchemeChar_of_mem hkind (c := stop) (by rw [hscheme]; simp)
          rw [hstop] at hmem
          cases hmem
      · rw [stripScheme_append _ hkind] at htext
        cases htext

/-- What is taken ends before a character that is not allowed. -/
theorem takeWhile_stop {allowed : Char → Bool} {stop : Char} (hstop : allowed stop = false)
    (text rest : List Char) :
    (text ++ stop :: rest).takeWhile allowed = text.takeWhile allowed ∧
      (text ++ stop :: rest).dropWhile allowed = text.dropWhile allowed ++ stop :: rest := by
  induction text with
  | nil => simp [hstop]
  | cons c text ih =>
    by_cases hc : allowed c = true
    · simp [hc, ih.1, ih.2]
    · simp [hc]

/-- A URL ends before a character that it cannot hold. -/
theorem matchUrl_stop {allowed : Char → Bool} {stop : Char} (hscheme : isSchemeChar stop = false)
    (hstop : allowed stop = false) (text rest : List Char) :
    matchUrl allowed (text ++ stop :: rest) =
      (matchUrl allowed text).map fun found => (found.1, found.2 ++ stop :: rest) := by
  rw [matchUrl, stripScheme_stop hscheme]
  cases htext : stripScheme text with
  | none => simp [matchUrl, htext]
  | some found =>
    simp only [matchUrl, htext, Option.map_some, (takeWhile_stop hstop found.2 rest).1,
      (takeWhile_stop hstop found.2 rest).2]
    split <;> rfl

/-- No match goes over a character that is in no URL. -/
theorem scan_stop {allowed : Char → Bool} {stop : Char} (hscheme : isSchemeChar stop = false)
    (hstop : allowed stop = false) (text rest : List Char) :
    scan (matchUrl allowed) (text ++ stop :: rest) =
      scan (matchUrl allowed) text ++ scan (matchUrl allowed) rest := by
  have hconsumes := matchUrl_consumes allowed
  induction hlength : text.length using Nat.strongRecOn generalizing text with
  | ind n ih =>
    rcases text with _ | ⟨c, text⟩
    · have hnone : matchUrl allowed (stop :: rest) = none := by
        rw [← List.nil_append (stop :: rest), matchUrl_stop hscheme hstop]
        rfl
      rw [List.nil_append, scan_cons hconsumes, hnone]
      rfl
    · rw [List.cons_append, scan_cons hconsumes, scan_cons hconsumes, ← List.cons_append,
        matchUrl_stop hscheme hstop]
      cases hmatch : matchUrl allowed (c :: text) with
      | none =>
        simp only [Option.map_none]
        exact ih text.length (by rw [← hlength]; simp) text rfl
      | some found =>
        have hlt := hconsumes _ _ _ hmatch
        simp only [Option.map_some, List.cons_append]
        rw [ih found.2.length (by omega) found.2 rfl]

/-! ## Links -/

/-- A link that is matched is a title in brackets and a URL in parentheses. -/
theorem matchMarkdownLink_eq_some {allowed : Char → Bool} {text rest : List Char}
    {found : List Char × List Char} (h : matchMarkdownLink allowed text = some (found, rest)) :
    ∃ after target, text = '[' :: after ∧ after.dropWhile (· ≠ ']') = ']' :: '(' :: target ∧
      matchUrl allowed target = some (found.2, ')' :: rest) := by
  unfold matchMarkdownLink at h
  split at h
  · next after =>
    split at h
    · next target htarget =>
      split at h
      · next url rest' hurl =>
        split at h
        · cases h
        · cases h
          exact ⟨after, target, rfl, htarget, hurl⟩
      · cases h
    · cases h
  · cases h

theorem matchMarkdownLink_consumes (allowed : Char → Bool) : Consumes (matchMarkdownLink allowed) := by
  intro text found rest h
  obtain ⟨after, target, rfl, htarget, hurl⟩ := matchMarkdownLink_eq_some h
  obtain ⟨-, -, -, -, -, -, rfl⟩ := matchUrl_eq_some hurl
  have hle := (List.dropWhile_suffix (l := after) (· ≠ ']')).length_le
  rw [htarget] at hle
  simp only [List.length_cons, List.length_append] at hle ⊢
  omega

/-- A written link is matched as it was written. -/
theorem matchMarkdownLink_link {allowed : Char → Bool} {title url : List Char} (rest : List Char)
    (htitle : ∀ c ∈ title, c ≠ ']') (hne : title ≠ []) (hurl : matchUrl allowed url = some (url, []))
    (hclose : allowed ')' = false) :
    matchMarkdownLink allowed ('[' :: (title ++ ']' :: '(' :: (url ++ ')' :: rest))) =
      some ((title, url), rest) := by
  have htake : (title ++ ']' :: '(' :: (url ++ ')' :: rest)).takeWhile (· ≠ ']') = title := by
    rw [(takeWhile_stop (by decide) _ _).1, List.takeWhile_eq_self_iff.mpr (by simpa using htitle)]
  have hdrop : (title ++ ']' :: '(' :: (url ++ ')' :: rest)).dropWhile (· ≠ ']') =
      ']' :: '(' :: (url ++ ')' :: rest) := by
    rw [(takeWhile_stop (by decide) _ _).2, List.dropWhile_eq_nil_iff.mpr (by simpa using htitle)]
    rfl
  have hmatch := matchUrl_stop (by decide) hclose url rest
  rw [matchMarkdownLink, hdrop]
  simp only [hmatch, hurl, htake, Option.map_some, List.nil_append]
  rw [if_neg (by simpa using hne)]

/-- A Markdown link to an HTTP URL. -/
structure MarkdownLink (isHttpUrl : String → Bool) where
  title : String
  url : String
  title_nonblank : title ≠ ""
  title_clean : cleanText title = title
  title_brackets : ∀ c ∈ title.toList, c ≠ '[' ∧ c ≠ ']'
  url_http : isHttpUrl url = true
  /-- More than a scheme. -/
  url_host : url ≠ "https://" ∧ url ≠ "http://"
  url_spaces : ∀ c ∈ url.toList, isSpaceChar c = false
  /-- It does not end in punctuation. -/
  url_trimmed : trimUrl url = url

/-- A text without brackets and without a URL: nowhere in it the pattern of a URL matches. -/
structure PlainText where
  text : String
  brackets : ∀ c ∈ text.toList, c ≠ '[' ∧ c ≠ ']'
  urlFree : ∀ rest, rest <:+ text.toList → matchUrl isBareUrlChar rest = none

/-- Links, each with the text before it, and the text after them. -/
structure MarkdownText (isHttpUrl : String → Bool) where
  parts : List (PlainText × MarkdownLink isHttpUrl)
  last : PlainText
  distinct : (parts.map (·.2.url)).Nodup

section Texts

variable {isHttpUrl : String → Bool}

/-- `[title](url)` -/
def MarkdownLink.render (link : MarkdownLink isHttpUrl) : String :=
  "[" ++ link.title ++ "](" ++ link.url ++ ")"

def renderParts (parts : List (PlainText × MarkdownLink isHttpUrl)) (last : String) : String :=
  parts.foldr (fun part rest => part.1.text ++ part.2.render ++ rest) last

def MarkdownText.render (text : MarkdownText isHttpUrl) : String :=
  renderParts text.parts text.last.text

def MarkdownLink.pair (link : MarkdownLink isHttpUrl) : UrlTitle := ⟨link.title, link.url⟩

/-- The links of a text, in order. -/
def MarkdownText.links (text : MarkdownText isHttpUrl) : List UrlTitle :=
  text.parts.map (·.2.pair)

/-- The URLs that the second pattern finds in a text, trimmed. -/
def bareUrls (text : String) : List String :=
  (scan (matchUrl isBareUrlChar) text.toList).map fun found => trimUrl (String.ofList found)

/-- The second pattern reads a text up to a bracket that closes. -/
def partUrls (part : PlainText × MarkdownLink isHttpUrl) : List String :=
  bareUrls (part.1.text ++ "[" ++ part.2.title) ++ bareUrls part.2.url

/-- What the patterns take for granted of links. -/
structure MarkdownText.Readable (text : MarkdownText isHttpUrl) : Prop where
  /-- A URL starts with its scheme in lower case, and holds no closing parenthesis. -/
  urls : ∀ part ∈ text.parts, (stripScheme part.2.url.toList).isSome ∧ ')' ∉ part.2.url.toList
  /-- What else looks like a URL in a title or in a URL is the URL of a link. -/
  bare : ∀ part ∈ text.parts, ∀ url ∈ partUrls part, isHttpUrl url = true →
    url ∈ text.parts.map (·.2.url)

/-- No link begins in plain text. -/
theorem scan_plain {rest : List Char} (plain : PlainText) :
    scan (matchMarkdownLink isMarkdownUrlChar) (plain.text.toList ++ rest) =
      scan (matchMarkdownLink isMarkdownUrlChar) rest := by
  refine scan_append (matchMarkdownLink_consumes _) _ _ fun part hne hpart => ?_
  obtain ⟨c, part, rfl⟩ := List.exists_cons_of_ne_nil hne
  have hc := (plain.brackets c (hpart.subset (List.mem_cons_self ..))).1
  rw [List.cons_append, matchMarkdownLink]
  intro text h
  exact hc (List.cons.inj h).1

/-- The URL of a written link is matched as a whole. -/
theorem MarkdownLink.matchUrl_url (link : MarkdownLink isHttpUrl) {allowed : Char → Bool}
    (h : (stripScheme link.url.toList).isSome) (hall : ∀ c ∈ link.url.toList, allowed c = true) :
    matchUrl allowed link.url.toList = some (link.url.toList, []) := by
  obtain ⟨⟨scheme, rest⟩, hscheme⟩ := Option.isSome_iff_exists.mp h
  obtain ⟨heq, hkind⟩ := stripScheme_eq hscheme
  have hne : rest ≠ [] := by
    rintro rfl
    rw [List.append_nil] at heq
    rcases hkind with rfl | rfl
    · exact link.url_host.1 (String.toList_injective heq)
    · exact link.url_host.2 (String.toList_injective heq)
  have hrest : ∀ c ∈ rest, allowed c = true := by
    intro c hc
    refine hall c ?_
    rw [heq]
    exact List.mem_append_right _ hc
  have htake : rest.takeWhile allowed = rest := List.takeWhile_eq_self_iff.mpr hrest
  have hdrop : rest.dropWhile allowed = [] := List.dropWhile_eq_nil_iff.mpr hrest
  simp only [matchUrl, hscheme, htake, hdrop]
  rw [if_neg (by simpa using hne), heq]

theorem MarkdownLink.isMarkdownUrlChar_of_mem (link : MarkdownLink isHttpUrl)
    (h : ')' ∉ link.url.toList) : ∀ c ∈ link.url.toList, isMarkdownUrlChar c = true := by
  intro c hc
  have hclose : c ≠ ')' := fun h' => h (h' ▸ hc)
  simp [isMarkdownUrlChar, link.url_spaces c hc, hclose]

/-- The first pattern finds the links. -/
theorem scan_links (parts : List (PlainText × MarkdownLink isHttpUrl)) (last : PlainText)
    (h : ∀ part ∈ parts, (stripScheme part.2.url.toList).isSome ∧ ')' ∉ part.2.url.toList) :
    scan (matchMarkdownLink isMarkdownUrlChar) (renderParts parts last.text).toList =
      parts.map fun part => (part.2.title.toList, part.2.url.toList) := by
  induction parts with
  | nil =>
    rw [renderParts, List.foldr_nil, ← List.append_nil last.text.toList, scan_plain]
    rfl
  | cons part parts ih =>
    obtain ⟨hscheme, hclose⟩ := h part List.mem_cons_self
    have hlink := matchMarkdownLink_link (renderParts parts last.text).toList
      (fun c hc => (part.2.title_brackets c hc).2) (by simpa using part.2.title_nonblank)
      (part.2.matchUrl_url hscheme (part.2.isMarkdownUrlChar_of_mem hclose)) (by decide)
    have hrender : (renderParts (part :: parts) last.text).toList = part.1.text.toList ++
        ('[' :: (part.2.title.toList ++ ']' :: '(' :: (part.2.url.toList ++
          ')' :: (renderParts parts last.text).toList))) := by
      rw [renderParts, List.foldr_cons, ← renderParts]
      simp [MarkdownLink.render]
    rw [hrender, scan_plain, scan_cons (matchMarkdownLink_consumes _), hlink, List.map_cons]
    simp only
    rw [ih fun other hother => h other (List.mem_cons_of_mem _ hother)]

/-- The second pattern finds URLs in titles, with the text before them, and in URLs. -/
theorem scan_bare (parts : List (PlainText × MarkdownLink isHttpUrl)) (last : PlainText) :
    (scan (matchUrl isBareUrlChar) (renderParts parts last.text).toList).map
      (fun found => trimUrl (String.ofList found)) = parts.flatMap partUrls := by
  induction parts with
  | nil =>
    have hnone := scan_append (matchUrl_consumes isBareUrlChar) last.text.toList []
      fun part _ hpart => by simpa using last.urlFree part hpart
    rw [renderParts, List.foldr_nil, ← List.append_nil last.text.toList, hnone]
    rfl
  | cons part parts ih =>
    have hrender : (renderParts (part :: parts) last.text).toList =
        (part.1.text ++ "[" ++ part.2.title).toList ++ ']' :: ([] ++ '(' :: (part.2.url.toList ++
          ')' :: (renderParts parts last.text).toList)) := by
      rw [renderParts, List.foldr_cons, ← renderParts]
      simp [MarkdownLink.render]
    rw [hrender, scan_stop (by decide) (by decide), scan_stop (by decide) (by decide),
      scan_stop (by decide) (by decide), List.map_append, List.map_append, List.map_append, ih,
      List.flatMap_cons, partUrls, bareUrls, bareUrls, List.append_assoc]
    rfl

/-! ## Pairs -/

variable (isHttpUrl) in
/-- A pair is added at the end, under the trimmed URL, or nothing is. -/
theorem pushPair_eq_or (pairs : List UrlTitle) (title : String) (found : List Char) :
    pushPair isHttpUrl pairs title found = pairs ∨
      ∃ pair, pushPair isHttpUrl pairs title found = pairs ++ [pair] ∧
        pair.url = trimUrl (String.ofList found) := by
  unfold pushPair
  dsimp only
  split
  · exact Or.inl rfl
  · exact Or.inr ⟨_, rfl, rfl⟩

/-- A pair is skipped when its URL is none, or is there already. -/
theorem pushPair_eq_self_iff (pairs : List UrlTitle) (title : String) (found : List Char) :
    pushPair isHttpUrl pairs title found = pairs ↔
      (isHttpUrl (trimUrl (String.ofList found)) = true →
        trimUrl (String.ofList found) ∈ pairs.map UrlTitle.url) := by
  unfold pushPair
  dsimp only
  split
  · next hskip =>
    refine iff_of_true rfl fun hhttp => ?_
    rw [hhttp] at hskip
    simpa [List.mem_map] using hskip
  · next hpush =>
    refine iff_of_false (by simp) fun himplies => hpush ?_
    cases hhttp : isHttpUrl (trimUrl (String.ofList found)) with
    | false => rfl
    | true =>
      obtain ⟨pair, hpair, heq⟩ := List.mem_map.mp (himplies hhttp)
      simp only [Bool.not_true, Bool.false_or, List.any_eq_true, decide_eq_true_eq]
      exact ⟨pair, hpair, heq⟩

/-- The pairs, with each one pushed that is found. -/
def pushAll (isHttpUrl : String → Bool) (pairs : List UrlTitle) (founds : List (String × List Char)) :
    List UrlTitle :=
  founds.foldl (fun pairs found => pushPair isHttpUrl pairs found.1 found.2) pairs

theorem pushAll_cons (pairs : List UrlTitle) (found : String × List Char)
    (founds : List (String × List Char)) :
    pushAll isHttpUrl pairs (found :: founds) =
      pushAll isHttpUrl (pushPair isHttpUrl pairs found.1 found.2) founds := rfl

variable (isHttpUrl) in
/-- The pairs that there are stay in front. -/
theorem prefix_pushAll (pairs : List UrlTitle) (founds : List (String × List Char)) :
    pairs <+: pushAll isHttpUrl pairs founds := by
  induction founds generalizing pairs with
  | nil => exact List.prefix_rfl
  | cons found founds ih =>
    rw [pushAll_cons]
    refine List.IsPrefix.trans ?_ (ih (pushPair isHttpUrl pairs found.1 found.2))
    rcases pushPair_eq_or isHttpUrl pairs found.1 found.2 with h | ⟨pair, h, -⟩
    · rw [h]
    · rw [h]
      exact List.prefix_append _ _

/-- Nothing is added exactly where every URL is invalid or known. -/
theorem pushAll_eq_self_iff (pairs : List UrlTitle) (founds : List (String × List Char)) :
    pushAll isHttpUrl pairs founds = pairs ↔
      ∀ found ∈ founds, isHttpUrl (trimUrl (String.ofList found.2)) = true →
        trimUrl (String.ofList found.2) ∈ pairs.map UrlTitle.url := by
  induction founds with
  | nil => exact iff_of_true rfl (by simp)
  | cons found founds ih =>
    rw [pushAll_cons, List.forall_mem_cons, ← pushPair_eq_self_iff pairs found.1, ← ih]
    constructor
    · intro h
      have hfirst : pushPair isHttpUrl pairs found.1 found.2 = pairs := by
        rcases pushPair_eq_or isHttpUrl pairs found.1 found.2 with hsame | ⟨pair, hmore, -⟩
        · exact hsame
        · -- what is pushed stays
          have hlength := (prefix_pushAll isHttpUrl (pushPair isHttpUrl pairs found.1 found.2) founds).length_le
          rw [h, hmore, List.length_append, List.length_singleton] at hlength
          omega
      refine ⟨hfirst, ?_⟩
      rwa [hfirst] at h
    · rintro ⟨hfirst, hrest⟩
      rwa [hfirst]

/-- A pair was there, or has the URL of something that was found. -/
theorem url_of_mem_pushAll {pairs : List UrlTitle} {founds : List (String × List Char)}
    {pair : UrlTitle} (h : pair ∈ pushAll isHttpUrl pairs founds) :
    pair ∈ pairs ∨ ∃ found ∈ founds, pair.url = trimUrl (String.ofList found.2) := by
  induction founds generalizing pairs with
  | nil => exact Or.inl h
  | cons found founds ih =>
    rw [pushAll_cons] at h
    rcases ih h with hpair | ⟨other, hother, heq⟩
    · rcases pushPair_eq_or isHttpUrl pairs found.1 found.2 with
        hsame | ⟨pushed, hmore, heq⟩
      · rw [hsame] at hpair
        exact Or.inl hpair
      · rw [hmore, List.mem_append, List.mem_singleton] at hpair
        rcases hpair with hpair | rfl
        · exact Or.inl hpair
        · exact Or.inr ⟨found, List.mem_cons_self, heq⟩
    · exact Or.inr ⟨other, List.mem_cons_of_mem _ hother, heq⟩

/-- New and distinct links are added as they are. -/
theorem pushAll_links (links : List (MarkdownLink isHttpUrl)) (pairs : List UrlTitle)
    (hnew : ∀ link ∈ links, link.url ∉ pairs.map UrlTitle.url)
    (hdistinct : (links.map (·.url)).Nodup) :
    pushAll isHttpUrl pairs (links.map fun link =>
        (cleanText (String.ofList link.title.toList), link.url.toList)) =
      pairs ++ links.map MarkdownLink.pair := by
  induction links generalizing pairs with
  | nil => simp [pushAll]
  | cons link links ih =>
    rw [List.map_cons, List.nodup_cons] at hdistinct
    have hpush : pushPair isHttpUrl pairs (cleanText (String.ofList link.title.toList))
        link.url.toList = pairs ++ [link.pair] := by
      have hnone : pairs.any (·.url = link.url) = false := by
        rw [List.any_eq_false]
        intro pair hpair heq
        exact hnew link List.mem_cons_self (List.mem_map.mpr ⟨pair, hpair, by simpa using heq⟩)
      unfold pushPair
      simp only [String.ofList_toList, link.url_trimmed, link.url_http, hnone, link.title_clean,
        link.title_nonblank, Bool.not_true, Bool.or_self, Bool.false_eq_true, if_false]
      rfl
    rw [List.map_cons, pushAll_cons, hpush, ih (pairs ++ [link.pair]) ?_ hdistinct.2]
    · simp
    · intro other hother
      rw [List.map_append, List.mem_append, not_or]
      refine ⟨hnew other (List.mem_cons_of_mem _ hother), fun hmem => ?_⟩
      have heq : other.url = link.url := by simpa [MarkdownLink.pair] using hmem
      exact hdistinct.1 (List.mem_map.mpr ⟨other, hother, heq⟩)

theorem extractUrlTitlePairs_eq (text : String) :
    extractUrlTitlePairs isHttpUrl text =
      pushAll isHttpUrl (pushAll isHttpUrl []
          ((scan (matchMarkdownLink isMarkdownUrlChar) text.toList).map fun found =>
            (cleanText (String.ofList found.1), found.2)))
        ((scan (matchUrl isBareUrlChar) text.toList).map fun found => ("", found)) := by
  unfold extractUrlTitlePairs pushAll scan
  rw [List.foldl_map, List.foldl_map]

/-! ## Texts of links -/

/-- What is pushed starts with a scheme, and holds no closing parenthesis. -/
theorem trimUrl_matched {allowed : Char → Bool} {text found rest : List Char}
    (hclose : allowed ')' = false) (h : matchUrl allowed text = some (found, rest)) :
    (stripScheme (trimUrl (String.ofList found)).toList).isSome ∧
      ')' ∉ (trimUrl (String.ofList found)).toList := by
  obtain ⟨scheme, part, rfl, hkind, -, hpart, -⟩ := matchUrl_eq_some h
  unfold trimUrl
  simp only [String.toList_ofList, List.reverse_append]
  have hscheme : scheme.reverse.dropWhile (fun c => c ∈ ['.', ',', ';', '!', '?', '，', '。', '；', '！', '？']) =
      scheme.reverse := by
    rcases hkind with rfl | rfl <;> decide +kernel
  have htrim : ∃ kept, kept <:+ part.reverse ∧ (part.reverse ++ scheme.reverse).dropWhile
      (fun c => c ∈ ['.', ',', ';', '!', '?', '，', '。', '；', '！', '？']) = kept ++ scheme.reverse := by
    rw [List.dropWhile_append, hscheme]
    split
    · exact ⟨[], List.nil_suffix, rfl⟩
    · exact ⟨_, List.dropWhile_suffix _, rfl⟩
  obtain ⟨kept, hkept, heq⟩ := htrim
  rw [heq, List.reverse_append, List.reverse_reverse, stripScheme_append _ hkind]
  refine ⟨rfl, fun hmem => ?_⟩
  rcases List.mem_append.mp hmem with hmem | hmem
  · have := isSchemeChar_of_mem hkind hmem
    revert this
    decide
  · have := hpart _ (by simpa using hkept.subset (List.mem_reverse.mp hmem))
    rw [hclose] at this
    cases this

/-- The URL of a pair has a scheme, and ends before a parenthesis. -/
theorem url_of_mem_extractUrlTitlePairs {text : String} {pair : UrlTitle}
    (h : pair ∈ extractUrlTitlePairs isHttpUrl text) :
    (stripScheme pair.url.toList).isSome ∧ ')' ∉ pair.url.toList := by
  rw [extractUrlTitlePairs_eq] at h
  rcases url_of_mem_pushAll h with hmarked | ⟨found, hfound, heq⟩
  · rcases url_of_mem_pushAll hmarked with hnil | ⟨found, hfound, heq⟩
    · cases hnil
    · obtain ⟨link, hlink, rfl⟩ := List.mem_map.mp hfound
      obtain ⟨part, rest, hmatch⟩ := match_of_mem_scan (matchMarkdownLink_consumes _) hlink
      obtain ⟨-, target, -, -, hurl⟩ := matchMarkdownLink_eq_some hmatch
      rw [heq]
      exact trimUrl_matched (by decide) hurl
  · obtain ⟨url, hurl, rfl⟩ := List.mem_map.mp hfound
    obtain ⟨part, rest, hmatch⟩ := match_of_mem_scan (matchUrl_consumes _) hurl
    rw [heq]
    exact trimUrl_matched (by decide) hmatch

variable (isHttpUrl) in
/--
**The pairs that are found in a text of links are the links exactly when the patterns can read it.**
-/
theorem extractUrlTitlePairs_iff (text : MarkdownText isHttpUrl) :
    extractUrlTitlePairs isHttpUrl text.render = text.links ↔ text.Readable := by
  have hmarked (hurls : ∀ part ∈ text.parts,
      (stripScheme part.2.url.toList).isSome ∧ ')' ∉ part.2.url.toList) :
      extractUrlTitlePairs isHttpUrl text.render = text.links ↔
        ∀ part ∈ text.parts, ∀ url ∈ partUrls part, isHttpUrl url = true →
          url ∈ text.parts.map (·.2.url) := by
    have hlinks := pushAll_links (text.parts.map Prod.snd) [] (by simp)
      (by simpa [List.map_map, Function.comp_def] using text.distinct)
    rw [List.map_map, List.map_map, List.nil_append] at hlinks
    have hbare := scan_bare text.parts text.last
    have hmap : text.links.map UrlTitle.url = text.parts.map (·.2.url) := by
      simp [MarkdownText.links, MarkdownLink.pair]
    rw [extractUrlTitlePairs_eq, MarkdownText.render, scan_links text.parts text.last hurls,
      List.map_map]
    have hfirst : pushAll isHttpUrl [] (text.parts.map ((fun found : List Char × List Char =>
        (cleanText (String.ofList found.1), found.2)) ∘ fun part =>
          (part.2.title.toList, part.2.url.toList))) = text.links := hlinks
    rw [hfirst, pushAll_eq_self_iff, List.forall_mem_map, hmap, ← List.forall_mem_flatMap, ← hbare,
      List.forall_mem_map]
  constructor
  · intro h
    have hurls : ∀ part ∈ text.parts,
        (stripScheme part.2.url.toList).isSome ∧ ')' ∉ part.2.url.toList := by
      intro part hpart
      have hpair : part.2.pair ∈ extractUrlTitlePairs isHttpUrl text.render := by
        rw [h]
        exact List.mem_map.mpr ⟨part, hpart, rfl⟩
      exact url_of_mem_extractUrlTitlePairs hpair
    exact ⟨hurls, (hmarked hurls).mp h⟩
  · rintro ⟨hurls, hbare⟩
    exact (hmarked hurls).mpr hbare

/-- URLs of characters that both patterns allow, and titles that no URL is found in, are readable. -/
theorem MarkdownText.readable_of_simple {text : MarkdownText isHttpUrl}
    (hurls : ∀ part ∈ text.parts, (stripScheme part.2.url.toList).isSome ∧
      ∀ c ∈ part.2.url.toList, isBareUrlChar c = true)
    (htitles : ∀ part ∈ text.parts, bareUrls (part.1.text ++ "[" ++ part.2.title) = []) :
    text.Readable := by
  refine ⟨fun part hpart => ⟨(hurls part hpart).1, fun hclose => ?_⟩, fun part hpart url hurl _ => ?_⟩
  · have := (hurls part hpart).2 _ hclose
    revert this
    decide
  · have hmatch := part.2.matchUrl_url (hurls part hpart).1 (hurls part hpart).2
    have hone : bareUrls part.2.url = [part.2.url] := by
      obtain ⟨c, rest, hcons⟩ := List.exists_cons_of_ne_nil (l := part.2.url.toList) (by
        intro hnil
        rw [hnil] at hmatch
        cases hmatch)
      rw [hcons] at hmatch
      rw [bareUrls, hcons, scan_cons (matchUrl_consumes _), hmatch, ← hcons]
      change [trimUrl (String.ofList part.2.url.toList)] = _
      rw [String.ofList_toList, part.2.url_trimmed]
    rw [partUrls, htitles part hpart, List.nil_append, hone, List.mem_singleton] at hurl
    rw [hurl]
    exact List.mem_map.mpr ⟨part, hpart, rfl⟩

end Texts

/-! ## A parenthesis in a URL -/

namespace LinkExtraction.Sample

/-- Whether a text has the scheme of an HTTP URL. -/
def hasScheme (url : String) : Bool := (stripScheme url.toList).isSome

def noText : PlainText where
  text := ""
  brackets := by simp
  urlFree rest h := by
    rw [show "".toList = [] from rfl, List.suffix_nil] at h
    rw [h]
    rfl

def wikiLink : MarkdownLink hasScheme where
  title := "t"
  url := "https://x.org/a_(b)"
  title_nonblank := by decide
  title_clean := by decide +kernel
  title_brackets := by simp
  url_http := by decide +kernel
  url_host := by decide
  url_spaces c hc := by
    have hall : "https://x.org/a_(b)".toList.all (fun c => !isSpaceChar c) = true := by decide +kernel
    simpa using List.all_eq_true.mp hall c hc
  url_trimmed := by decide +kernel

def wiki : MarkdownText hasScheme := ⟨[(noText, wikiLink)], noText, by simp⟩

/-- The URL is cut at the parenthesis that closes, and a bookmark of its start is added. -/
theorem url_cut :
    extractUrlTitlePairs hasScheme wiki.render =
        [⟨"t", "https://x.org/a_(b"⟩, ⟨"https://x.org/a_", "https://x.org/a_"⟩] ∧
      wiki.links = [⟨"t", "https://x.org/a_(b)"⟩] ∧
      extractUrlTitlePairs hasScheme wiki.render ≠ wiki.links := by
  refine ⟨by decide +kernel, by decide +kernel, by decide +kernel⟩

end LinkExtraction.Sample

end InboxServer
