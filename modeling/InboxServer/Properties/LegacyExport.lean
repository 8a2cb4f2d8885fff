import InboxServer.Scripts.ExportLegacyState

/-!
# What the export keeps

* `export_agrees` — the dedupe key of an item that is done comes out of the export as the new worker
  computes it, unless the item is a text; and no daily counter comes out under the bucket of a day
-/

namespace InboxServer

namespace Legacy

/-! ## Digits -/

/-- A padded number has digits only. -/
theorem isDigit_of_mem_pad2 {n : Nat} {c : Char} (h : c ∈ (pad2 n).toList) : c.isDigit = true := by
  unfold pad2 at h
  split at h
  · rw [String.toList_append, List.mem_append] at h
    rcases h with hzero | hdigit
    · rw [show "0".toList = ['0'] from rfl, List.mem_singleton] at hzero
      rw [hzero]
      rfl
    · exact isDigit_of_mem_toString hdigit
  · exact isDigit_of_mem_toString h

/-- The date of a counter is written in digits alone. -/
theorem not_mem_strftime {c : Char} (hc : c.isDigit = false) (now : CivilDate) :
    c ∉ (strftime now).toList := by
  intro h
  have hdigit : c.isDigit = true := by
    simp only [strftime, String.toList_append, List.mem_append] at h
    rcases h with (hyear | hmonth) | hday
    · exact isDigit_of_mem_toString hyear
    · exact isDigit_of_mem_pad2 hmonth
    · exact isDigit_of_mem_pad2 hday
  rw [hc] at hdigit
  cases hdigit

theorem dash_mem_shanghaiDate (current : Instant) : '-' ∈ (shanghaiDate current).toList := by
  simp [shanghaiDate, CivilDate.text]

/-! ## Patterns -/

theorem globMatch_star_iff {pattern text : List Char} :
    globMatch ('*' :: pattern) text = true ↔ ∃ rest, rest <:+ text ∧ globMatch pattern rest = true := by
  rw [globMatch.eq_def]
  dsimp only
  rw [if_pos rfl, List.any_eq_true]
  simp only [List.mem_tails]

/-- A letter matches itself. -/
theorem globMatch_cons {c : Char} (hc : c ≠ '*') {pattern text : List Char} :
    globMatch (c :: pattern) text = true ↔
      ∃ rest, text = c :: rest ∧ globMatch pattern rest = true := by
  rw [globMatch.eq_def]
  dsimp only
  rw [if_neg hc]
  cases text with
  | nil => simp
  | cons x rest =>
    simp only [Bool.and_eq_true, decide_eq_true_eq, List.cons.injEq]
    constructor
    · rintro ⟨rfl, h⟩
      exact ⟨rest, ⟨rfl, rfl⟩, h⟩
    · rintro ⟨_, ⟨rfl, rfl⟩, h⟩
      exact ⟨rfl, h⟩

theorem globMatch_literal {literal pattern text : List Char} (h : '*' ∉ literal)
    (hmatch : globMatch pattern text = true) :
    globMatch (literal ++ pattern) (literal ++ text) = true := by
  induction literal with
  | nil => exact hmatch
  | cons c literal ih =>
    rw [List.mem_cons, not_or] at h
    exact (globMatch_cons (Ne.symm h.1)).mpr ⟨_, rfl, ih h.2⟩

/-- A text that matches has at least as many of each letter as the pattern. -/
theorem count_le_of_globMatch {c : Char} (hc : c ≠ '*') {pattern text : List Char}
    (h : globMatch pattern text = true) : pattern.count c ≤ text.count c := by
  induction pattern generalizing text with
  | nil => simp
  | cons p pattern ih =>
    by_cases hp : p = '*'
    · subst hp
      obtain ⟨rest, hrest, hmatch⟩ := globMatch_star_iff.mp h
      rw [List.count_cons_of_ne hc.symm]
      exact le_trans (ih hmatch) (hrest.sublist.count_le c)
    · obtain ⟨rest, rfl, hmatch⟩ := (globMatch_cons hp).mp h
      rw [List.count_cons, List.count_cons]
      exact Nat.add_le_add_right (ih hmatch) _

/-- A key that is built as a pattern says matches it. -/
theorem globMatch_key {before middle : List Char} (hbefore : '*' ∉ before) (hmiddle : '*' ∉ middle)
    (kind rest : List Char) :
    globMatch (before ++ '*' :: (middle ++ ['*'])) (before ++ (kind ++ (middle ++ rest))) = true := by
  refine globMatch_literal hbefore (globMatch_star_iff.mpr ⟨_, List.suffix_append kind _, ?_⟩)
  refine globMatch_literal hmiddle (globMatch_star_iff.mpr ⟨[], List.nil_suffix, rfl⟩)

/-! ## Splits -/

/-- A text is split at its first separator. -/
theorem splitMax_append {sep : Char} {first : List Char} (h : sep ∉ first) (n : Nat)
    (rest : List Char) :
    splitMax sep (n + 1) (first ++ sep :: rest) = first :: splitMax sep n rest := by
  have hne : ∀ c ∈ first, decide (c ≠ sep) = true := by
    intro c hc
    rw [decide_eq_true_eq]
    rintro rfl
    exact h hc
  have hdrop : (first ++ sep :: rest).dropWhile (· ≠ sep) = sep :: rest := by
    rw [List.dropWhile_append_of_pos hne]
    simp
  have htake : (first ++ sep :: rest).takeWhile (· ≠ sep) = first := by
    rw [List.takeWhile_append_of_pos hne]
    simp
  rw [splitMax, hdrop, htake]

/-- A text has one part more than it has separators, up to the limit. -/
theorem length_splitMax (sep : Char) (n : Nat) (text : List Char) :
    (splitMax sep n text).length = min n (text.count sep) + 1 := by
  induction n generalizing text with
  | zero => simp [splitMax]
  | succ n ih =>
    by_cases hmem : sep ∈ text
    · obtain ⟨first, rest, rfl, hfirst⟩ := List.eq_append_cons_of_mem hmem
      rw [splitMax_append hfirst, List.length_cons, ih, List.count_append,
        List.count_eq_zero_of_not_mem hfirst, List.count_cons_self]
      omega
    · have hnil : text.dropWhile (· ≠ sep) = [] := by
        rw [List.dropWhile_eq_nil_iff]
        intro c hc
        rw [decide_eq_true_eq]
        rintro rfl
        exact hmem hc
      rw [splitMax, hnil, List.count_eq_zero_of_not_mem hmem]
      simp

/-! ## Done keys -/

theorem not_mem_kindName {c : Char} (hc : c = ':' ∨ c = '*') (kind : ItemKind) :
    c ∉ kind.name.toList := by
  rcases hc with rfl | rfl <;> cases kind <;> decide

theorem toList_doneKey (kind : ItemKind) (fp : String) :
    (doneKey (queueKey kind) fp).toList =
      "queue:".toList ++ (kind.name.toList ++ (":done:".toList ++ fp.toList)) := by
  simp only [doneKey, queueKey, String.toList_append, List.append_assoc]

theorem scanned_doneKey (kind : ItemKind) (fp : String) :
    globMatch "queue:*:done:*".toList (doneKey (queueKey kind) fp).toList = true := by
  rw [toList_doneKey]
  exact @globMatch_key "queue:".toList ":done:".toList (by decide) (by decide) _ _

/-- A done key has four parts, the last of which is the fingerprint. -/
theorem split_doneKey (kind : ItemKind) (fp : String) :
    splitMax ':' 3 (doneKey (queueKey kind) fp).toList =
      ["queue".toList, kind.name.toList, "done".toList, fp.toList] := by
  have hlist : (doneKey (queueKey kind) fp).toList =
      "queue".toList ++ ':' :: (kind.name.toList ++ ':' :: ("done".toList ++ ':' :: fp.toList)) := by
    rw [toList_doneKey]
    rfl
  rw [hlist, splitMax_append (by decide), splitMax_append (not_mem_kindName (Or.inl rfl) kind),
    splitMax_append (by decide)]
  rfl

/-- The job that a done key comes out as. -/
theorem doneJob_doneKey (hashes : Hashes) (exportedAt : String) (kind : ItemKind) (fp : String) :
    ∃ job, doneJob hashes exportedAt (doneKey (queueKey kind) fp) = some job ∧
      job.dedupeKey = "dispatch:" ++ kind.name ++ ":" ++ digestIdentity hashes kind.name fp := by
  unfold doneJob
  rw [split_doneKey]
  refine ⟨_, rfl, ?_⟩
  simp only [String.ofList_toList]

/-- Every key that the scan finds has the four parts that the loop unpacks. -/
theorem doneJob_isSome (hashes : Hashes) (exportedAt : String) {key : String}
    (h : globMatch "queue:*:done:*".toList key.toList = true) :
    ∃ job, doneJob hashes exportedAt key = some job := by
  have hcount := count_le_of_globMatch (c := ':') (by decide) h
  have hlength := length_splitMax ':' 3 key.toList
  have hthree : "queue:*:done:*".toList.count ':' = 3 := by decide
  rw [hthree] at hcount
  rw [Nat.min_eq_left hcount] at hlength
  obtain ⟨first, kind, middle, identity, hsplit⟩ := List.length_eq_four.mp hlength
  unfold doneJob
  rw [hsplit]
  exact ⟨_, rfl⟩

/-- A map that succeeds on each element succeeds, with all their values. -/
theorem mapM_of_forall {α β : Type} {f : α → Option β} {l : List α}
    (h : ∀ a ∈ l, ∃ b, f a = some b) :
    ∃ bs, l.mapM f = some bs ∧ ∀ a ∈ l, ∀ b, f a = some b → b ∈ bs := by
  induction l with
  | nil => exact ⟨[], rfl, fun _ ha => by cases ha⟩
  | cons a l ih =>
    obtain ⟨b, hb⟩ := h a List.mem_cons_self
    obtain ⟨bs, hbs, hmem⟩ := ih fun a ha => h a (List.mem_cons_of_mem _ ha)
    refine ⟨b :: bs, by rw [List.mapM_cons, hb, hbs]; rfl, fun a' ha' b' hb' => ?_⟩
    rcases List.mem_cons.mp ha' with rfl | hrest
    · rw [hb] at hb'
      cases hb'
      exact List.mem_cons_self
    · exact List.mem_cons_of_mem _ (hmem a' hrest b' hb')

/-- The export does not fail, and has the job of every done key. -/
theorem exportDoneJobs_mem (hashes : Hashes) (exportedAt : String) {store : List RedisEntry}
    {entry : RedisEntry} (hentry : entry ∈ store) {kind : ItemKind} {fp : String}
    (hkey : entry.key = doneKey (queueKey kind) fp) :
    ∃ jobs job, exportDoneJobs hashes exportedAt store = some jobs ∧ job ∈ jobs ∧
      doneJob hashes exportedAt entry.key = some job ∧
      job.dedupeKey = "dispatch:" ++ kind.name ++ ":" ++ digestIdentity hashes kind.name fp := by
  obtain ⟨jobs, hjobs, hmem⟩ := mapM_of_forall (l := scanIter "queue:*:done:*" store)
    (f := fun entry => doneJob hashes exportedAt entry.key)
    fun entry h => doneJob_isSome hashes exportedAt (List.mem_filter.mp h).2
  obtain ⟨job, hjob, hdedupe⟩ := doneJob_doneKey hashes exportedAt kind fp
  have hscanned : entry ∈ scanIter "queue:*:done:*" store :=
    List.mem_filter.mpr ⟨hentry, by rw [hkey]; exact scanned_doneKey kind fp⟩
  rw [← hkey] at hjob
  refine ⟨_, job, by rw [exportDoneJobs, hjobs]; rfl, ?_, hjob, hdedupe⟩
  exact (List.mem_insertionSort _).mpr (hmem entry hscanned job hjob)

/-! ## Counters -/

theorem toList_dailyKey (kind : ItemKind) (now : CivilDate) :
    (dailyKey (queueKey kind) now).toList =
      "queue:".toList ++ (kind.name.toList ++ (":daily:".toList ++ (strftime now).toList)) := by
  simp only [dailyKey, queueKey, String.toList_append, List.append_assoc]

theorem scanned_dailyKey (kind : ItemKind) (now : CivilDate) :
    globMatch "queue:*:daily:*".toList (dailyKey (queueKey kind) now).toList = true := by
  rw [toList_dailyKey]
  exact @globMatch_key "queue:".toList ":daily:".toList (by decide) (by decide) _ _

/-- A daily key has four parts, the last of which is the date. -/
theorem split_dailyKey (kind : ItemKind) (now : CivilDate) :
    (dailyKey (queueKey kind) now).toList.splitOn ':' =
      ["queue".toList, kind.name.toList, "daily".toList, (strftime now).toList] := by
  have hlist : (dailyKey (queueKey kind) now).toList = [':'].intercalate
      ["queue".toList, kind.name.toList, "daily".toList, (strftime now).toList] := by
    rw [toList_dailyKey]
    simp [List.intercalate, List.intersperse]
  rw [hlist]
  refine List.splitOn_intercalate ':' (fun part hpart => ?_) (by simp)
  simp only [List.mem_cons, List.not_mem_nil, or_false] at hpart
  rcases hpart with rfl | rfl | rfl | rfl
  · decide
  · exact not_mem_kindName (Or.inl rfl) kind
  · decide
  · exact not_mem_strftime (by decide) now

/-- What a counter of the worker comes out as. -/
theorem exportRateLimits_mem (exportedAt : Instant) {store : List RedisEntry} {entry : RedisEntry}
    (hentry : entry ∈ store) {kind : ItemKind} {now : CivilDate}
    (hkey : entry.key = dailyKey (queueKey kind) now) :
    ∃ limit ∈ exportRateLimits exportedAt store, exportedLimit exportedAt entry = some limit ∧
      limit.scope = dailyScope kind ∧ limit.bucketKey = strftime now := by
  have hlimit : exportedLimit exportedAt entry = some
      { scope := String.ofList kind.name.toList ++ ":daily"
        bucketKey := String.ofList (strftime now).toList
        count := entry.value.getD 0, expiresAt := exportedAt + max entry.ttl 0 * 1000 } := by
    unfold exportedLimit
    rw [hkey, split_dailyKey]
  have hscanned : entry ∈ scanIter "queue:*:daily:*" store :=
    List.mem_filter.mpr ⟨hentry, by rw [hkey]; exact scanned_dailyKey kind now⟩
  refine ⟨_, ?_, hlimit, ?_, ?_⟩
  · exact (List.mem_insertionSort _).mpr (List.mem_filterMap.mpr ⟨entry, hscanned, hlimit⟩)
  · rw [String.ofList_toList]
    rfl
  · exact String.ofList_toList

theorem dailyScope_ne_windowScope (a b : ItemKind) : dailyScope a ≠ windowScope b := by
  cases a <;> cases b <;> decide

/-- No bucket of the worker is a date in digits alone, under the daily scope. -/
theorem bucketKey_ne {archive : ArticleArchive} {item : DispatchItem} {current : Instant}
    {input : RateLimitInput} (h : input ∈ rateLimitInputs archive item current) (kind : ItemKind)
    (now : CivilDate) : ¬ (dailyScope kind = input.scope ∧ strftime now = input.bucketKey) := by
  rintro ⟨hscope, hbucket⟩
  unfold rateLimitInputs RatePolicy.inputs at h
  rcases List.mem_append.mp h with hdaily | hwindow
  · obtain ⟨limit, -, rfl⟩ := Option.map_eq_some_iff.mp (Option.mem_toList.mp hdaily)
    have hdate : strftime now = shanghaiDate current := hbucket
    have hdash := dash_mem_shanghaiDate current
    rw [← hdate] at hdash
    exact not_mem_strftime (by decide) now hdash
  · split at hwindow
    · rw [List.mem_singleton.mp hwindow] at hscope
      exact dailyScope_ne_windowScope kind item.itemKind hscope
    · cases hwindow

/-! ## The export and the new worker -/

/-- The item is no text, or a text that is its own MD5 digest. -/
def KeepsKey (md5Hex : String → String) : DispatchItem → Prop
  | .text content _ => md5Hex content = content
  | .link .. | .file .. | .article .. => True

/-- The key of a link or a file is the one that the job has. -/
theorem dedupeKey_agrees {hashes : Hashes} (hinj : Function.Injective hashes.sha256Hex)
    {item : DispatchItem} (hkind : item.itemKind ≠ .article) :
    "dispatch:" ++ item.itemKind.name ++ ":" ++ digestIdentity hashes item.itemKind.name
        (fingerprint hashes (legacyItem item) item.itemKind) =
      createItemDedupeKey hashes.sha256Hex item ↔ KeepsKey hashes.md5Hex item := by
  cases item with
  | link tags title url => exact iff_of_true rfl trivial
  | file localPath objectKey remoteName => exact iff_of_true rfl trivial
  | article => exact absurd rfl hkind
  | text content tags =>
    show _ ++ hashes.sha256Hex (hashes.md5Hex content) = _ ++ hashes.sha256Hex content ↔ _
    constructor
    · intro h
      exact hinj (String.append_right_inj _ |>.mp h)
    · intro h
      rw [show hashes.md5Hex content = content from h]

/--
**The dedupe key of an item that is done is exported as the new worker computes it, exactly if the
item is no text (or its own digest); and no daily counter is exported under the new worker's bucket.**
-/
theorem export_agrees {hashes : Hashes} (hinj : Function.Injective hashes.sha256Hex)
    (exportedAt : String) (now : Instant) (store : List RedisEntry) :
    (∀ item entry, item.itemKind ≠ ItemKind.article → entry ∈ store →
      entry.key = doneKey (queueKey item.itemKind)
        (fingerprint hashes (legacyItem item) item.itemKind) →
      ∃ jobs job, exportDoneJobs hashes exportedAt store = some jobs ∧ job ∈ jobs ∧
        doneJob hashes exportedAt entry.key = some job ∧
        (job.dedupeKey = createItemDedupeKey hashes.sha256Hex item ↔
          KeepsKey hashes.md5Hex item)) ∧
    (∀ kind date entry, entry ∈ store → entry.key = dailyKey (queueKey kind) date →
      ∃ limit ∈ exportRateLimits now store, exportedLimit now entry = some limit ∧
        ∀ archive item current, item.itemKind = kind →
          ∀ input ∈ rateLimitInputs archive item current,
            ¬ (limit.scope = input.scope ∧ limit.bucketKey = input.bucketKey)) := by
  constructor
  · intro item entry hkind hentry hkey
    obtain ⟨jobs, job, hjobs, hmem, hjob, hdedupe⟩ :=
      exportDoneJobs_mem hashes exportedAt hentry hkey
    refine ⟨jobs, job, hjobs, hmem, hjob, ?_⟩
    rw [hdedupe]
    exact dedupeKey_agrees hinj hkind
  · intro kind date entry hentry hkey
    obtain ⟨limit, hmem, hlimit, hscope, hbucket⟩ := exportRateLimits_mem now hentry hkey
    refine ⟨limit, hmem, hlimit, fun archive item current _ input hinput => ?_⟩
    rw [hscope, hbucket]
    exact bucketKey_ne hinput kind date

/-! ### A link and a text that were done -/

namespace Hello

def url : String := "https://example.com/a"

def urlDigest : String := "2dce0a4c50441bfccfa9caf4b58c3cba6e06c420505dd829f0436de1aa44baac"

def md5 : String := "5d41402abc4b2a76b9719d911017c592"

def md5Digest : String := "4914e23374bb211e3dca0df7636fefffc7fedd94f1340ae81c7d6c07b7113e9b"

def digest : String := "2cf24dba5fb0a30e26e83b2ac5b9e29e1b161e5c1fa7425e73043362938b9824"

/-- The hashes of three texts; no two texts have one digest. -/
def hashes : Hashes where
  md5Hex text := if text = "hello" then md5 else text
  sha256Hex :=
    ((Equiv.swap url urlDigest).trans (Equiv.swap "hello" digest)).trans (Equiv.swap md5 md5Digest)
  uuid5 name :=
    if name = "dispatch:link:" ++ urlDigest then "43fb93ab-5866-5087-824b-5b9a5d8b7482"
    else if name = "dispatch:text:" ++ md5Digest then "618145c8-00b3-5616-82d6-06423629fe68"
    else name

def link : DispatchItem := .link none none url

def text : DispatchItem := .text "hello" none

def store : List RedisEntry :=
  [⟨"queue:link:done:https://example.com/a", some 1, 604800⟩,
    ⟨"queue:text:done:5d41402abc4b2a76b9719d911017c592", some 1, 604800⟩,
    ⟨"queue:text:daily:20260105", some 96, 90000⟩]

theorem sha256Hex_injective : Function.Injective hashes.sha256Hex :=
  (((Equiv.swap url urlDigest).trans (Equiv.swap "hello" digest)).trans
    (Equiv.swap md5 md5Digest)).injective

/-- The text comes out under another key, and its counter under another bucket. -/
theorem export_differs :
    exportDoneJobs hashes "2026-01-05T08:00:00+00:00" store = some
      [⟨"dispatch:link:" ++ urlDigest, "43fb93ab-5866-5087-824b-5b9a5d8b7482", "link",
          "2026-01-05T08:00:00+00:00"⟩,
        ⟨"dispatch:text:" ++ md5Digest, "618145c8-00b3-5616-82d6-06423629fe68", "text",
          "2026-01-05T08:00:00+00:00"⟩] ∧
      createItemDedupeKey hashes.sha256Hex text = "dispatch:text:" ++ digest ∧
      "dispatch:text:" ++ md5Digest ≠ "dispatch:text:" ++ digest ∧
      (exportRateLimits 1767600000000 store).map (fun limit => (limit.scope, limit.bucketKey)) =
        [("text:daily", "20260105")] ∧
      (ratePolicy ⟨1, 1, 1, Nat.one_pos, Nat.one_pos, Nat.one_pos⟩ .text).inputs .text
          1767600000000 =
        [⟨"2026-01-05", 96, "text:daily", 86400⟩, ⟨"81833", 25, "text:window", 21600⟩] := by
  refine ⟨?_, ?_, ?_, ?_, ?_⟩ <;> decide +kernel

/-- The link comes out under the key that the new worker looks for. -/
theorem export_agrees_link :
    ∃ jobs job, exportDoneJobs hashes "2026-01-05T08:00:00+00:00" store = some jobs ∧ job ∈ jobs ∧
      job.dedupeKey = createItemDedupeKey hashes.sha256Hex link := by
  obtain ⟨jobs, job, hjobs, hmem, -, hkey⟩ :=
    (export_agrees sha256Hex_injective "2026-01-05T08:00:00+00:00" 1767600000000 store).1 link _
      (by decide) (List.mem_cons_self) rfl
  exact ⟨jobs, job, hjobs, hmem, hkey.mpr trivial⟩

end Hello

end Legacy

end InboxServer
