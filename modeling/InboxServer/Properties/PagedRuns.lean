import InboxServer.Worker.PagedCollectors

/-!
# What is collected page by page

* `ran_complete_iff` — when a run leaves no entry of the remote list uncollected
* `pagedRuns_complete` — the same over runs between which the list grows at its newest end
-/

namespace InboxServer

open Infra

/-! ## Pages of a list -/

section Pages

variable {α : Type*} {size n : Nat} {l : List α} {x : α}

/-- A page of a list, counted from zero. -/
def pageOf (size : Nat) (l : List α) (i : Nat) : List α := (l.drop (size * i)).take size

/-- What is on one of the first pages is among as many entries. -/
theorem mem_take_pages : x ∈ l.take (size * n) ↔ ∃ i < n, x ∈ pageOf size l i := by
  induction n with
  | zero => simp
  | succ n ih =>
    rw [Nat.mul_succ, List.take_add, List.mem_append, ih]
    constructor
    · rintro (⟨i, hi, hx⟩ | hx)
      · exact ⟨i, by omega, hx⟩
      · exact ⟨n, by omega, hx⟩
    · rintro ⟨i, hi, hx⟩
      rcases Nat.lt_or_ge i n with hlt | hge
      · exact Or.inl ⟨i, hlt, hx⟩
      · obtain rfl : i = n := by omega
        exact Or.inr hx

theorem mem_of_mem_pageOf {i : Nat} (h : x ∈ pageOf size l i) : x ∈ l :=
  List.mem_of_mem_drop (List.mem_of_mem_take h)

end Pages

/-! ## The loop -/

section Loop

variable {fetch : Nat → PagedProg PageRead} {known : List String}
  {T : Event PagedCall PagedCall.Answer → Prop} {pageAt : Nat → List Bookmark}
  {LastAt : Nat → Bool → Prop}

/-- The bookmarks of a page that are not known. -/
def freshAt (known : List String) (pageAt : Nat → List Bookmark) (i : Nat) : List Bookmark :=
  (pageAt i).filter fun bookmark => bookmark.key ∉ known

/-- Where the answers are as `T` says, a fetch reads what the page is. -/
def ReadsPages (fetch : Nat → PagedProg PageRead) (T : Event PagedCall PagedCall.Answer → Prop)
    (pageAt : Nat → List Bookmark) (LastAt : Nat → Bool → Prop) : Prop :=
  ∀ i trace read, (fetch i).Runs trace (.ok read) → (∀ e ∈ trace, T e) →
    read.1 = pageAt i ∧ LastAt i read.2

/-- The loop went on after a page. -/
def GoesOn (known : List String) (pageAt : Nat → List Bookmark) (LastAt : Nat → Bool → Prop)
    (i : Nat) : Prop :=
  LastAt i false ∧ freshAt known pageAt i ≠ []

/-- The loop stopped at a page. -/
def StoppedAt (known : List String) (pageAt : Nat → List Bookmark) (LastAt : Nat → Bool → Prop)
    (i : Nat) : Prop :=
  LastAt i true ∨ freshAt known pageAt i = []

/-- The pages that a loop goes through: as many as there may be, or up to one at which it stops. -/
structure WentThrough (known : List String) (pageAt : Nat → List Bookmark)
    (LastAt : Nat → Bool → Prop) (first bound n : Nat) : Prop where
  goes : ∀ i, first ≤ i → i + 1 < first + n → GoesOn known pageAt LastAt i
  stops : n = bound ∨ 0 < n ∧ StoppedAt known pageAt LastAt (first + n - 1)

/-- What is collected is fresh on the pages before the stop. -/
theorem collectPages_runs (hfetch : ReadsPages fetch T pageAt LastAt) {left page : Nat}
    {fresh result : List Bookmark} {trace : List (Event PagedCall PagedCall.Answer)}
    (h : (collectPages fetch known left page fresh).Runs trace (.ok result))
    (hT : ∀ e ∈ trace, T e) :
    ∃ n, result = fresh ++ (List.range' page n).flatMap (freshAt known pageAt) ∧
      WentThrough known pageAt LastAt page left n := by
  induction left generalizing page fresh trace with
  | zero =>
    obtain ⟨-, hresult⟩ := Prog.runs_ret.mp h
    obtain rfl := Except.ok.inj hresult
    exact ⟨0, by simp, fun i hi hlt => by omega, Or.inl rfl⟩
  | succ left ih =>
    rcases Prog.runs_andThen.mp h with ⟨first, second, read, rfl, hread, hrest⟩ | ⟨e, -, he⟩
    · obtain ⟨hpage, hlast⟩ := hfetch page first read hread fun e he =>
        hT e (List.mem_append_left _ he)
      have hfresh : (read.1.filter fun bookmark => bookmark.key ∉ known) =
          freshAt known pageAt page := by
        rw [hpage]
        rfl
      dsimp only at hrest
      rw [hfresh] at hrest
      split at hrest
      · next hstop =>
        obtain ⟨-, hresult⟩ := Prog.runs_ret.mp hrest
        obtain rfl := Except.ok.inj hresult
        refine ⟨1, by simp, fun i hi hlt => by omega, Or.inr ⟨by omega, ?_⟩⟩
        rw [Nat.add_sub_cancel]
        rcases Bool.or_eq_true _ _ |>.mp hstop with hflag | hnil
        · rw [hflag] at hlast
          exact Or.inl hlast
        · exact Or.inr (by simpa using hnil)
      · next hgo =>
        have hgoes : GoesOn known pageAt LastAt page := by
          rw [Bool.or_eq_true, not_or, Bool.not_eq_true, decide_eq_true_eq] at hgo
          rw [hgo.1] at hlast
          exact ⟨hlast, hgo.2⟩
        obtain ⟨n, hresult, hwent⟩ := ih hrest fun e he => hT e (List.mem_append_right _ he)
        refine ⟨n + 1, ?_, ?_, ?_⟩
        · rw [hresult, List.range'_succ, List.flatMap_cons, List.append_assoc]
        · intro i hi hlt
          rcases Nat.eq_or_lt_of_le hi with rfl | hlt'
          · exact hgoes
          · exact hwent.goes i hlt' (by omega)
        · rcases hwent.stops with hn | ⟨hpos, hstops⟩
          · exact Or.inl (by omega)
          · refine Or.inr ⟨by omega, ?_⟩
            rwa [show page + (n + 1) - 1 = page + 1 + n - 1 by omega]
    · cases he

end Loop

/-! ## The sources -/

inductive PagedSource where
  | githubStars | zhihu | bilibili
  deriving DecidableEq

namespace PagedSource

/-- The name under which a source keeps its baseline. -/
def name : PagedSource → String
  | githubStars => "github_stars"
  | zhihu => "zhihu"
  | bilibili => "bilibili"

def tags : PagedSource → List String
  | githubStars => ["github"]
  | zhihu | bilibili => []

/-- How many entries a full page has. -/
def size : PagedSource → Nat
  | githubStars => 100
  | zhihu | bilibili => 20

/-- How many pages a run goes through at most. -/
def bound : PagedSource → Nat
  | githubStars => 100
  | zhihu | bilibili => 200

/-- What the parser of a source makes of an entry. -/
def parseEntry (isHttpUrl : String → Bool) : PagedSource → Json → Option Bookmark
  | githubStars => parseGithubStar isHttpUrl
  | zhihu => parseZhihuEntry isHttpUrl
  | bilibili => parseBilibiliVideo

def collect (options : CollectorOptions) : PagedSource → PagedProg CollectionResult
  | githubStars => collectGithubStars options
  | zhihu => collectBrowserSource options "zhihu" (collectZhihu options.isHttpUrl)
  | bilibili => collectBrowserSource options "bilibili" collectBilibili

/-- The item of a bookmark. -/
def item (source : PagedSource) (bookmark : Bookmark) : DispatchItem :=
  .link (some source.tags) (some bookmark.title) bookmark.url

/-- The bookmarks that are read off a page. -/
def pageBookmarks (isHttpUrl : String → Bool) (source : PagedSource) (remote : List Json) (i : Nat) :
    List Bookmark :=
  let bookmarks := (pageOf source.size remote i).filterMap (source.parseEntry isHttpUrl)
  match source with
  | bilibili => uniqueBookmarks bookmarks
  | _ => bookmarks

/-- A page that the loop takes for the last by its bookmarks. -/
def Short (isHttpUrl : String → Bool) (source : PagedSource) (remote : List Json) (i : Nat) : Prop :=
  match source with
  | githubStars => (source.pageBookmarks isHttpUrl remote i).length < 100
  | _ => source.pageBookmarks isHttpUrl remote i = []

/-- What the loop may hold of a page: that it is the last, if it is short, or if nothing is left. -/
structure LastAt (isHttpUrl : String → Bool) (source : PagedSource) (remote : List Json) (i : Nat)
    (last : Bool) : Prop where
  of_short : source.Short isHttpUrl remote i → last = true
  only : last = true → source.Short isHttpUrl remote i ∨ remote.length ≤ source.size * (i + 1)

variable {isHttpUrl : String → Bool} {source : PagedSource} {remote : List Json} {i : Nat}

/-- The bookmarks of a page are of its entries. -/
theorem mem_pageBookmarks {bookmark : Bookmark}
    (h : bookmark ∈ source.pageBookmarks isHttpUrl remote i) :
    ∃ raw ∈ pageOf source.size remote i, source.parseEntry isHttpUrl raw = some bookmark := by
  have hmem : bookmark ∈
      (pageOf source.size remote i).filterMap (source.parseEntry isHttpUrl) := by
    cases source with
    | githubStars => exact h
    | zhihu => exact h
    | bilibili => exact (firstBy_sublist _ _).subset h
  exact List.mem_filterMap.mp hmem

/-- A page has the keys of its entries. -/
theorem exists_pageBookmark {raw : Json} {bookmark : Bookmark}
    (hraw : raw ∈ pageOf source.size remote i)
    (hparse : source.parseEntry isHttpUrl raw = some bookmark) :
    ∃ found ∈ source.pageBookmarks isHttpUrl remote i, found.key = bookmark.key := by
  have hmem : bookmark ∈ (pageOf source.size remote i).filterMap (source.parseEntry isHttpUrl) :=
    List.mem_filterMap.mpr ⟨raw, hraw, hparse⟩
  cases source with
  | githubStars => exact ⟨bookmark, hmem, rfl⟩
  | zhihu => exact ⟨bookmark, hmem, rfl⟩
  | bilibili =>
    have hkeys : bookmark.key ∈ (uniqueBookmarks
        ((pageOf bilibili.size remote i).filterMap (bilibili.parseEntry isHttpUrl))).map Bookmark.key :=
      mem_map_firstBy.mpr ⟨List.mem_map_of_mem hmem, List.not_mem_nil⟩
    obtain ⟨found, hfound, hkey⟩ := List.mem_map.mp hkeys
    exact ⟨found, hfound, hkey⟩

/-- The URL of a bookmark is its key. -/
theorem url_eq_key {raw : Json} {bookmark : Bookmark}
    (h : source.parseEntry isHttpUrl raw = some bookmark) : bookmark.url = bookmark.key := by
  cases source with
  | githubStars =>
    dsimp only [parseEntry] at h
    unfold parseGithubStar at h
    split at h
    · dsimp only at h
      split at h
      · rw [← Option.some.inj h]
      · cases h
    · cases h
  | zhihu =>
    dsimp only [parseEntry] at h
    unfold parseZhihuEntry at h
    split at h
    · dsimp only at h
      split at h
      · rw [← Option.some.inj h]
      · cases h
    · cases h
  | bilibili =>
    dsimp only [parseEntry] at h
    unfold parseBilibiliVideo at h
    split at h
    · dsimp only at h
      split at h
      · cases h
      · rw [← Option.some.inj h]
    · cases h

/-! ### What the source answers -/

/-- An answer from a list that is served in full pages, and from the stored baseline. -/
def Serves (source : PagedSource) (remote : List Json) (stored : Option Json) :
    Event PagedCall PagedCall.Answer → Prop
  | ⟨.getState key, answer⟩ =>
    key = "baseline:" ++ source.name → ∀ state, answer = .ok state → state = stored
  | ⟨.starredPage _ page, answer⟩ => ∀ status payload, answer = .ok (status, some payload) →
    isOk status = true → payload = .arr (pageOf 100 remote (page - 1))
  | ⟨.zhihuItems _ offset, answer⟩ => ∀ status payload, answer = .ok (status, some payload) →
    isOk status = true → zhihuData payload = pageOf 20 remote (offset / 20) ∧
      (zhihuIsEnd payload = true → remote.length ≤ offset + 20)
  | ⟨.bilibiliList _ pageNumber, answer⟩ => ∀ status payload,
    answer = .ok (status, some payload) → isOk status = true →
      bilibiliMedias payload = pageOf 20 remote (pageNumber - 1)
  | _ => True

/-- A reply that is taken has a payload and a status that is OK. -/
theorem jsonReply_eq_ok {reply : Except Thrown JsonResponse} {payload : Json}
    (h : jsonReply reply = .ok payload) :
    ∃ status, reply = .ok (status, some payload) ∧ isOk status = true := by
  unfold jsonReply at h
  split at h
  · cases h
  · next status body =>
    split at h
    · cases h
    · next hok =>
      split at h
      · rw [Except.ok.inj h]
        exact ⟨status, rfl, by simpa using hok⟩
      · cases h

theorem pageJson_eq_ok {reply : Except Thrown JsonResponse} {payload : Json}
    (h : pageJson reply = .ok payload) :
    ∃ status, reply = .ok (status, some payload) ∧ isOk status = true := by
  unfold pageJson at h
  split at h
  · cases h
  · next status body =>
    split at h
    · cases h
    · split at h
      · cases h
      · next hok =>
        split at h
        · rw [Except.ok.inj h]
          exact ⟨status, rfl, by simpa using hok⟩
        · cases h

/-- The pages of GitHub are read as their bookmarks, up to one with too few of them. -/
theorem fetchStarred_reads (options : CollectorOptions) (token : String) (stored : Option Json) :
    ReadsPages (fetchStarred options.isHttpUrl token) (Serves .githubStars remote stored)
      (pageBookmarks options.isHttpUrl .githubStars remote)
      (LastAt options.isHttpUrl .githubStars remote) := by
  intro i trace read h hserves
  obtain ⟨reply, rest, rfl, hrest⟩ := Prog.runs_call.mp h
  obtain ⟨-, hread⟩ := Prog.runs_ret.mp hrest
  cases hjson : jsonReply reply with
  | error e =>
    rw [hjson] at hread
    cases hread
  | ok payload =>
    obtain ⟨status, rfl, hok⟩ := jsonReply_eq_ok hjson
    have hpayload := hserves _ List.mem_cons_self status payload rfl hok
    rw [Nat.add_sub_cancel] at hpayload
    rw [hjson, hpayload] at hread
    obtain rfl := Except.ok.inj hread
    refine ⟨rfl, ⟨fun hshort => ?_, fun hlast => Or.inl ?_⟩⟩
    · rw [decide_eq_true_eq]
      exact hshort
    · rw [decide_eq_true_eq] at hlast
      exact hlast

theorem fetchZhihu_reads (options : CollectorOptions) (collectionId : String)
    (stored : Option Json) :
    ReadsPages (fetchZhihu options.isHttpUrl collectionId) (Serves .zhihu remote stored)
      (pageBookmarks options.isHttpUrl .zhihu remote) (LastAt options.isHttpUrl .zhihu remote) := by
  intro i trace read h hserves
  obtain ⟨reply, rest, rfl, hrest⟩ := Prog.runs_call.mp h
  obtain ⟨-, hread⟩ := Prog.runs_ret.mp hrest
  cases hjson : pageJson reply with
  | error e =>
    rw [hjson] at hread
    cases hread
  | ok payload =>
    obtain ⟨status, rfl, hok⟩ := pageJson_eq_ok hjson
    obtain ⟨hdata, hend⟩ := hserves _ List.mem_cons_self status payload rfl hok
    rw [Nat.mul_div_cancel_left i (by omega)] at hdata
    have hitems : parseZhihuCollection options.isHttpUrl payload =
        pageBookmarks options.isHttpUrl .zhihu remote i := by
      rw [parseZhihuCollection, hdata]
      rfl
    rw [hjson] at hread
    obtain rfl := Except.ok.inj hread
    refine ⟨hitems, ⟨fun hshort => ?_, fun hlast => ?_⟩⟩
    · rw [Bool.or_eq_true, decide_eq_true_eq, hitems]
      exact Or.inl hshort
    · rw [Bool.or_eq_true, decide_eq_true_eq, hitems] at hlast
      rcases hlast with hshort | hmark
      · exact Or.inl hshort
      · exact Or.inr (hend hmark)

theorem fetchBilibili_reads (options : CollectorOptions) (mediaId : String) (stored : Option Json) :
    ReadsPages (fetchBilibili mediaId) (Serves .bilibili remote stored)
      (pageBookmarks options.isHttpUrl .bilibili remote)
      (LastAt options.isHttpUrl .bilibili remote) := by
  intro i trace read h hserves
  obtain ⟨reply, rest, rfl, hrest⟩ := Prog.runs_call.mp h
  obtain ⟨-, hread⟩ := Prog.runs_ret.mp hrest
  cases hjson : pageJson reply with
  | error e =>
    rw [hjson] at hread
    cases hread
  | ok payload =>
    obtain ⟨status, rfl, hok⟩ := pageJson_eq_ok hjson
    have hmedias := hserves _ List.mem_cons_self status payload rfl hok
    rw [Nat.add_sub_cancel] at hmedias
    have hbatch : parseBilibiliFavorites payload =
        pageBookmarks options.isHttpUrl .bilibili remote i := by
      rw [parseBilibiliFavorites, hmedias]
      rfl
    rw [hjson] at hread
    obtain rfl := Except.ok.inj hread
    refine ⟨hbatch, ⟨fun hshort => ?_, fun hlast => Or.inl ?_⟩⟩
    · rw [decide_eq_true_eq, hbatch]
      exact hshort
    · rw [decide_eq_true_eq, hbatch] at hlast
      exact hlast

end PagedSource

/-! ### Runs of a source -/

section SourceRuns

variable {trace : List (Event PagedCall PagedCall.Answer)} {result : CollectionResult}

/-- A run reads its baseline, then the pages, then stores the new one. -/
theorem collectFresh_runs {source : String} {tags : List String}
    {pages : List String → PagedProg (List Bookmark)}
    (h : (collectFresh source tags pages).Runs trace (.ok result)) :
    ∃ state rest fresh, trace = ⟨.getState ("baseline:" ++ source), .ok state⟩ :: rest ∧
      (pages (knownKeys state)).Runs rest (.ok fresh) ∧
        result = bookmarkResult source tags fresh (knownKeys state) := by
  obtain ⟨reply, rest, rfl, hrest⟩ := Prog.runs_call.mp h
  cases reply with
  | error e => cases (Prog.runs_ret.mp hrest).2
  | ok state =>
    rcases Prog.runs_andThen.mp hrest with ⟨first, second, fresh, rfl, hpages, hend⟩ | ⟨e, -, he⟩
    · obtain ⟨rfl, hresult⟩ := Prog.runs_ret.mp hend
      exact ⟨state, first ++ [], fresh, rfl, by simpa using hpages, Except.ok.inj hresult⟩
    · cases he

/-- What is done in a page is in the run. -/
theorem withPage_runs {α : Type} {url : String} {body : PagedProg α} {a : α}
    (h : (withPage url body).Runs trace (.ok a)) :
    ∃ inner, (∀ e ∈ inner, e ∈ trace) ∧ body.Runs inner (.ok a) := by
  obtain ⟨reply, rest, rfl, hrest⟩ := Prog.runs_call.mp h
  cases reply with
  | error e => cases (Prog.runs_ret.mp hrest).2
  | ok _ =>
    obtain ⟨first, second, inside, rfl, hfirst, hsecond⟩ := Prog.runs_bind.mp hrest
    obtain ⟨closed, last, rfl, hlast⟩ := Prog.runs_call.mp hsecond
    have hinside : inside = .ok a := by
      cases closed with
      | error e => cases (Prog.runs_ret.mp hlast).2
      | ok _ => exact (Prog.runs_ret.mp hlast).2.symm
    subst hinside
    obtain ⟨went, inner, rfl, hinner⟩ := Prog.runs_call.mp hfirst
    cases went with
    | error e => cases (Prog.runs_ret.mp hinner).2
    | ok _ =>
      refine ⟨inner, fun e he => ?_, hinner⟩
      exact List.mem_cons_of_mem _ (List.mem_append_left _ (List.mem_cons_of_mem _ he))

variable {options : CollectorOptions} {source : PagedSource} {remote : List Json}
  {stored : Option Json}

/-- What a run that succeeds has gone through, and what it results in. -/
structure Collected (options : CollectorOptions) (source : PagedSource) (remote : List Json)
    (known : List String) (fresh : List Bookmark) (n : Nat) : Prop where
  eq : fresh = (List.range n).flatMap
    (freshAt known (source.pageBookmarks options.isHttpUrl remote))
  went : WentThrough known (source.pageBookmarks options.isHttpUrl remote)
    (source.LastAt options.isHttpUrl remote) 0 source.bound n

/-- What a run collects is what it reads of its pages. -/
theorem collected_of_pages {fetch : Nat → PagedProg PageRead} {known : List String}
    {fresh : List Bookmark}
    (hfetch : ReadsPages fetch (source.Serves remote stored)
      (source.pageBookmarks options.isHttpUrl remote) (source.LastAt options.isHttpUrl remote))
    (h : (collectPages fetch known source.bound 0 []).Runs trace (.ok fresh))
    (hserves : ∀ e ∈ trace, source.Serves remote stored e) :
    ∃ n, Collected options source remote known fresh n := by
  obtain ⟨n, hfresh, hwent⟩ := collectPages_runs hfetch h hserves
  rw [List.nil_append, ← List.range_eq_range'] at hfresh
  exact ⟨n, hfresh, hwent⟩

/-- **A run that succeeds, where the list is served as it is.** -/
theorem collect_runs (h : (source.collect options).Runs trace (.ok result))
    (hserves : ∀ e ∈ trace, source.Serves remote stored e) :
    ∃ fresh n, result = bookmarkResult source.name source.tags fresh (knownKeys stored) ∧
      Collected options source remote (knownKeys stored) fresh n := by
  -- the three sources differ in their pages only
  have hpages : ∀ {name : String} {tags : List String}
      {pages : List String → PagedProg (List Bookmark)}, name = source.name → tags = source.tags →
      (collectFresh name tags pages).Runs trace (.ok result) →
      (∀ {inner fresh}, (∀ e ∈ inner, source.Serves remote stored e) →
        (pages (knownKeys stored)).Runs inner (.ok fresh) →
          ∃ n, Collected options source remote (knownKeys stored) fresh n) →
      ∃ fresh n, result = bookmarkResult source.name source.tags fresh (knownKeys stored) ∧
        Collected options source remote (knownKeys stored) fresh n := by
    rintro name tags pages rfl rfl hrun hread
    obtain ⟨state, rest, fresh, rfl, hrest, hresult⟩ := collectFresh_runs hrun
    have hstate : state = stored := hserves _ List.mem_cons_self rfl state rfl
    subst hstate
    obtain ⟨n, hn⟩ := hread (fun e he => hserves e (List.mem_cons_of_mem _ he)) hrest
    exact ⟨fresh, n, hresult, hn⟩
  cases source with
  | githubStars =>
    dsimp only [PagedSource.collect] at h
    unfold collectGithubStars at h
    split at h
    · cases (Prog.runs_ret.mp h).2
    · next token _ =>
      exact hpages rfl rfl h fun hinner hrun =>
        collected_of_pages (PagedSource.fetchStarred_reads options token stored) hrun hinner
  | zhihu =>
    dsimp only [PagedSource.collect] at h
    unfold collectBrowserSource at h
    split at h
    · cases (Prog.runs_ret.mp h).2
    · unfold collectZhihu at h
      split at h
      · cases (Prog.runs_ret.mp h).2
      · next collectionId _ =>
        -- the page is opened and closed around the calls
        refine hpages rfl rfl h fun hinner hrun => ?_
        obtain ⟨inner, hsub, hbody⟩ := withPage_runs hrun
        exact collected_of_pages (PagedSource.fetchZhihu_reads options collectionId stored) hbody
          fun e he => hinner e (hsub e he)
  | bilibili =>
    dsimp only [PagedSource.collect] at h
    unfold collectBrowserSource at h
    split at h
    · cases (Prog.runs_ret.mp h).2
    · unfold collectBilibili at h
      split at h
      · cases (Prog.runs_ret.mp h).2
      · next mediaId _ =>
        refine hpages rfl rfl h fun hinner hrun => ?_
        obtain ⟨inner, hsub, hbody⟩ := withPage_runs hrun
        exact collected_of_pages (PagedSource.fetchBilibili_reads options mediaId stored) hbody
          fun e he => hinner e (hsub e he)

end SourceRuns

/-! ## When nothing is left out -/

section Complete

variable {options : CollectorOptions} {source : PagedSource} {remote : List Json}
  {known : List String} {fresh : List Bookmark} {n : Nat}

/-- A list has an entry with the key. -/
def HasKey (isHttpUrl : String → Bool) (source : PagedSource) (entries : List Json) (key : String) :
    Prop :=
  ∃ raw ∈ entries, ∃ bookmark, source.parseEntry isHttpUrl raw = some bookmark ∧ bookmark.key = key

/--
Every page that a new key comes after, one which neither the baseline has nor any page up to that
one, has itself a key that is not in the baseline; and no entry of it is dropped, where the loop goes
by the number of entries.
-/
def CarriesOn (isHttpUrl : String → Bool) (source : PagedSource) (known : List String)
    (remote : List Json) : Prop :=
  ∀ i,
    (∃ key, key ∉ known ∧ HasKey isHttpUrl source (remote.drop (source.size * (i + 1))) key ∧
      ¬HasKey isHttpUrl source (remote.take (source.size * (i + 1))) key) →
    (∃ key, key ∉ known ∧ HasKey isHttpUrl source (pageOf source.size remote i) key) ∧
      (source = .githubStars →
        ∀ raw ∈ pageOf source.size remote i, (source.parseEntry isHttpUrl raw).isSome = true)

/-- A page has something fresh where it has a key that is not known. -/
theorem freshAt_ne_nil {i : Nat} :
    freshAt known (source.pageBookmarks options.isHttpUrl remote) i ≠ [] ↔
      ∃ key, key ∉ known ∧ HasKey options.isHttpUrl source (pageOf source.size remote i) key := by
  constructor
  · intro h
    obtain ⟨bookmark, hmem⟩ := List.exists_mem_of_ne_nil _ h
    obtain ⟨hpage, hnew⟩ := List.mem_filter.mp hmem
    obtain ⟨raw, hraw, hparse⟩ := PagedSource.mem_pageBookmarks hpage
    exact ⟨bookmark.key, by simpa using hnew, raw, hraw, bookmark, hparse, rfl⟩
  · rintro ⟨key, hnew, raw, hraw, bookmark, hparse, rfl⟩
    obtain ⟨found, hfound, hkey⟩ := PagedSource.exists_pageBookmark hraw hparse
    refine List.ne_nil_of_mem (List.mem_filter.mpr ⟨hfound, ?_⟩)
    rw [hkey]
    exact decide_eq_true hnew

/-- The keys that a run collects are the new ones of its pages. -/
theorem Collected.mem_keys (h : Collected options source remote known fresh n) {key : String}
    (hnew : key ∉ known) :
    key ∈ fresh.map Bookmark.key ↔
      HasKey options.isHttpUrl source (remote.take (source.size * n)) key := by
  rw [h.eq]
  simp only [List.mem_map, List.mem_flatMap, List.mem_range]
  constructor
  · rintro ⟨bookmark, ⟨i, hi, hmem⟩, rfl⟩
    obtain ⟨raw, hraw, hparse⟩ := PagedSource.mem_pageBookmarks (List.mem_filter.mp hmem).1
    exact ⟨raw, mem_take_pages.mpr ⟨i, hi, hraw⟩, bookmark, hparse, rfl⟩
  · rintro ⟨raw, hraw, bookmark, hparse, rfl⟩
    obtain ⟨i, hi, hpage⟩ := mem_take_pages.mp hraw
    obtain ⟨found, hfound, hkey⟩ := PagedSource.exists_pageBookmark hpage hparse
    refine ⟨found, ⟨i, hi, List.mem_filter.mpr ⟨hfound, ?_⟩⟩, hkey⟩
    rw [hkey]
    exact decide_eq_true hnew

/-- What a run collects are entries of the list that the baseline lacks. -/
theorem Collected.parsed (h : Collected options source remote known fresh n) {bookmark : Bookmark}
    (hmem : bookmark ∈ fresh) :
    ∃ raw ∈ remote, source.parseEntry options.isHttpUrl raw = some bookmark := by
  rw [h.eq] at hmem
  obtain ⟨i, -, hi⟩ := List.mem_flatMap.mp hmem
  obtain ⟨raw, hraw, hparse⟩ := PagedSource.mem_pageBookmarks (List.mem_filter.mp hi).1
  exact ⟨raw, mem_of_mem_pageOf hraw, hparse⟩

/-- A page with more after it is full, and short only if an entry of it is dropped, or all are. -/
theorem short_iff_of_full {isHttpUrl : String → Bool} {i : Nat}
    (hmore : source.size * (i + 1) < remote.length)
    (hkey : ∃ key, HasKey isHttpUrl source (pageOf source.size remote i) key) :
    source.Short isHttpUrl remote i ↔ source = .githubStars ∧
      ¬∀ raw ∈ pageOf source.size remote i, (source.parseEntry isHttpUrl raw).isSome = true := by
  have hnonempty : source.pageBookmarks isHttpUrl remote i ≠ [] := by
    obtain ⟨key, raw, hraw, bookmark, hparse, -⟩ := hkey
    obtain ⟨found, hfound, -⟩ := PagedSource.exists_pageBookmark hraw hparse
    exact List.ne_nil_of_mem hfound
  cases source with
  | githubStars =>
    have hfull : (pageOf 100 remote i).length = 100 := by
      rw [pageOf, List.length_take, List.length_drop]
      have hmore : 100 * (i + 1) < remote.length := hmore
      omega
    have hle := List.length_filterMap_le (PagedSource.githubStars.parseEntry isHttpUrl)
      (pageOf 100 remote i)
    show ((pageOf 100 remote i).filterMap (PagedSource.githubStars.parseEntry isHttpUrl)).length < 100
      ↔ _
    constructor
    · intro hshort
      refine ⟨rfl, fun hall => ?_⟩
      have heq := List.filterMap_length_eq_length.mpr hall
      rw [show PagedSource.size .githubStars = 100 from rfl, hfull] at heq
      omega
    · rintro ⟨-, hdropped⟩
      refine Nat.lt_of_le_of_ne (hle.trans_eq hfull) fun heq => hdropped ?_
      exact List.filterMap_length_eq_length.mp (heq.trans hfull.symm)
  | zhihu => exact ⟨fun hshort => absurd hshort hnonempty, fun h => by cases h.1⟩
  | bilibili => exact ⟨fun hshort => absurd hshort hnonempty, fun h => by cases h.1⟩

/-- **When a run that succeeds leaves no entry of the list out.** -/
theorem Collected.complete_iff (h : Collected options source remote known fresh n)
    (hbound : remote.length ≤ source.size * source.bound) :
    (∀ key, HasKey options.isHttpUrl source remote key → key ∈ known ∨ key ∈ fresh.map Bookmark.key) ↔
      CarriesOn options.isHttpUrl source known remote := by
  -- an entry is on the first m pages or behind them
  have hsplit : ∀ m key, HasKey options.isHttpUrl source remote key →
      HasKey options.isHttpUrl source (remote.take (source.size * m)) key ∨
        HasKey options.isHttpUrl source (remote.drop (source.size * m)) key := by
    rintro m key ⟨raw, hraw, hparse⟩
    rw [← List.take_append_drop (source.size * m) remote] at hraw
    rcases List.mem_append.mp hraw with hraw | hraw
    · exact Or.inl ⟨raw, hraw, hparse⟩
    · exact Or.inr ⟨raw, hraw, hparse⟩
  have hlonger : ∀ {m key}, HasKey options.isHttpUrl source (remote.drop (source.size * m)) key →
      source.size * m < remote.length := by
    rintro m key ⟨raw, hraw, -⟩
    by_contra hle
    rw [List.drop_eq_nil_of_le (by omega)] at hraw
    cases hraw
  constructor
  · rintro hcomplete i ⟨key, hnew, hlater, hbefore⟩
    have hmore := hlonger hlater
    -- the key behind page i was read, so the next page was asked for
    have hread : i + 1 < n := by
      by_contra hle
      have hlist : HasKey options.isHttpUrl source remote key := by
        obtain ⟨raw, hraw, hparse⟩ := hlater
        exact ⟨raw, List.mem_of_mem_drop hraw, hparse⟩
      obtain ⟨raw, hraw, hparse⟩ :=
        (h.mem_keys hnew).mp ((hcomplete key hlist).resolve_left hnew)
      have hshorter : source.size * n ≤ source.size * (i + 1) := Nat.mul_le_mul_left _ (by omega)
      exact hbefore ⟨raw, (List.take_subset_take_left _ hshorter) hraw, hparse⟩
    have hgoes := h.went.goes i (Nat.zero_le _) (by omega)
    obtain ⟨fresh', hfresh', hhas⟩ := freshAt_ne_nil.mp hgoes.2
    refine ⟨⟨fresh', hfresh', hhas⟩, fun hgithub => ?_⟩
    by_contra hdropped
    have hshort := (short_iff_of_full hmore ⟨fresh', hhas⟩).mpr ⟨hgithub, hdropped⟩
    cases hgoes.1.of_short hshort
  -- a key that is lost is behind the last page, which carries on
  · intro hcarry key hkey
    by_contra hlost
    rw [not_or] at hlost
    obtain ⟨hnew, hlost⟩ := hlost
    rw [h.mem_keys hnew] at hlost
    have hlater := (hsplit n key hkey).resolve_left hlost
    have hmore := hlonger hlater
    rcases h.went.stops with rfl | ⟨hpos, hstops⟩
    · omega
    · obtain ⟨i, rfl⟩ : ∃ i, n = i + 1 := ⟨n - 1, by omega⟩
      rw [show 0 + (i + 1) - 1 = i by omega] at hstops
      obtain ⟨⟨key', hnew', hhas⟩, hall⟩ := hcarry i ⟨key, hnew, hlater, hlost⟩
      rcases hstops with hlast | hnil
      · rcases hlast.only rfl with hshort | hend
        · obtain ⟨hgithub, hdropped⟩ := (short_iff_of_full hmore ⟨key', hhas⟩).mp hshort
          exact hdropped (hall hgithub)
        · omega
      · exact freshAt_ne_nil.mpr ⟨key', hnew', hhas⟩ hnil

end Complete

/-! ## Runs one after the other -/

/-- The remote list, newest first, the stored baseline, and the items of all runs so far. -/
structure PagedState where
  remote : List Json
  stored : Option Json
  collected : List DispatchItem

/-- The state after a run with the given result: its items are published, its baseline stored. -/
def PagedState.after (source : PagedSource) (s : PagedState) (result : CollectionResult) :
    PagedState where
  remote := s.remote
  stored := (result.stateUpdates.lookup ("baseline:" ++ source.name)).or s.stored
  collected := s.collected ++ result.items

section Histories

variable {options : CollectorOptions} {source : PagedSource} {s s' : PagedState}

/--
A run publishes what it has collected and stores its baseline; the list is no longer than it may go
through, and is served as it is.
-/
def Ran (options : CollectorOptions) (source : PagedSource) (s s' : PagedState) : Prop :=
  s.remote.length ≤ source.size * source.bound ∧ ∃ trace result,
    (source.collect options).Runs trace (.ok result) ∧
      (∀ e ∈ trace, source.Serves s.remote s.stored e) ∧ s' = s.after source result

/--
What may happen: the list grows at its newest end, a run fails with the items that it has published
by then, or one stores its baseline, whether it succeeds or fails after that.
-/
inductive PagedStep (options : CollectorOptions) (source : PagedSource) (s : PagedState) :
    PagedState → Prop
  | grow (entries : List Json) : PagedStep options source s { s with remote := entries ++ s.remote }
  | fail (published : List DispatchItem) :
      PagedStep options source s { s with collected := s.collected ++ published }
  | run {s' : PagedState} (h : Ran options source s s') : PagedStep options source s s'

/-- The states that are reached from an empty baseline. -/
def PagedReached (options : CollectorOptions) (source : PagedSource) (s : PagedState) : Prop :=
  ∃ start : PagedState, knownKeys start.stored = [] ∧ start.collected = [] ∧
    Relation.ReflTransGen (PagedStep options source) start s

/--
Every entry of the list that the parser does not drop is collected, and its key stored. The item of
the entry itself is collected unless there is another entry with its key, and another title.
-/
def PagedComplete (options : CollectorOptions) (source : PagedSource) (s : PagedState) : Prop :=
  ∀ raw ∈ s.remote, ∀ bookmark, source.parseEntry options.isHttpUrl raw = some bookmark →
    bookmark.key ∈ knownKeys s.stored ∧
      (∃ found : Bookmark, found.url = bookmark.url ∧ source.item found ∈ s.collected) ∧
        ((∀ other ∈ s.remote, ∀ found, source.parseEntry options.isHttpUrl other = some found →
          found.key = bookmark.key → found = bookmark) → source.item bookmark ∈ s.collected)

/-- A key of the baseline is that of an entry of the list, whose item is collected. -/
def KnownCollected (options : CollectorOptions) (source : PagedSource) (s : PagedState) : Prop :=
  ∀ key ∈ knownKeys s.stored, ∃ raw ∈ s.remote, ∃ found,
    source.parseEntry options.isHttpUrl raw = some found ∧ found.key = key ∧
      source.item found ∈ s.collected

/-- The new baseline has the known keys and the fresh ones. -/
theorem mem_knownKeys_mergedState {known : List String} {fresh : List Bookmark} {key : String} :
    key ∈ knownKeys (some (mergedState known fresh)) ↔
      key ∈ known ∨ key ∈ fresh.map Bookmark.key := by
  have hfirst : ∀ l : List String, key ∈ firstBy id [] l ↔ key ∈ l := by
    intro l
    have := @mem_map_firstBy _ _ _ id [] l key
    simpa using this
  have hread : ∀ l : List String,
      readStringArray (some (.obj [("knownKeys", .arr (l.map .str))])) "knownKeys" = l := by
    intro l
    show (l.map Json.str).filterMap parseString = l
    rw [List.filterMap_map]
    exact (List.filterMap_congr fun _ _ => rfl).trans List.filterMap_some
  rw [knownKeys, mergedState, hread, hfirst, hfirst, List.mem_append]

theorem knownKeys_after {fresh : List Bookmark} {key : String} :
    key ∈ knownKeys
        (s.after source (bookmarkResult source.name source.tags fresh (knownKeys s.stored))).stored ↔
      key ∈ knownKeys s.stored ∨ key ∈ fresh.map Bookmark.key := by
  rw [← mem_knownKeys_mergedState]
  simp [PagedState.after, bookmarkResult]

theorem mem_collected_after {fresh : List Bookmark} {known : List String} {found : Bookmark}
    (h : found ∈ fresh) :
    source.item found ∈
      (s.after source (bookmarkResult source.name source.tags fresh known)).collected :=
  List.mem_append_right _ (List.mem_map_of_mem h)

/-- A run collects whatever it adds to the baseline. -/
theorem KnownCollected.ran (hknown : KnownCollected options source s)
    (h : Ran options source s s') : KnownCollected options source s' := by
  obtain ⟨-, trace, result, hrun, hserves, rfl⟩ := h
  obtain ⟨fresh, n, rfl, hcollected⟩ := collect_runs hrun hserves
  intro key hkey
  rcases knownKeys_after.mp hkey with hold | hnew
  · obtain ⟨raw, hraw, found, hparse, hsame, hitem⟩ := hknown key hold
    exact ⟨raw, hraw, found, hparse, hsame, List.mem_append_left _ hitem⟩
  · obtain ⟨found, hfound, hsame⟩ := List.mem_map.mp hnew
    obtain ⟨raw, hraw, hparse⟩ := hcollected.parsed hfound
    exact ⟨raw, hraw, found, hparse, hsame, mem_collected_after hfound⟩

/-- In every history, what is in the baseline was collected. -/
theorem PagedReached.knownCollected (h : PagedReached options source s) :
    KnownCollected options source s := by
  obtain ⟨start, hempty, -, hsteps⟩ := h
  induction hsteps with
  | refl =>
    intro key hkey
    rw [hempty] at hkey
    cases hkey
  | tail _ hstep ih =>
    cases hstep with
    | grow entries =>
      intro key hkey
      obtain ⟨raw, hraw, rest⟩ := ih key hkey
      exact ⟨raw, List.mem_append_right _ hraw, rest⟩
    | fail published =>
      intro key hkey
      obtain ⟨raw, hraw, found, hparse, hsame, hitem⟩ := ih key hkey
      exact ⟨raw, hraw, found, hparse, hsame, List.mem_append_left _ hitem⟩
    | run hran => exact ih.ran hran

/-- With the keys of the list in the baseline, nothing of it is left out. -/
theorem KnownCollected.complete_iff (h : KnownCollected options source s) :
    PagedComplete options source s ↔
      ∀ key, HasKey options.isHttpUrl source s.remote key → key ∈ knownKeys s.stored := by
  constructor
  · rintro hcomplete key ⟨raw, hraw, bookmark, hparse, rfl⟩
    exact (hcomplete raw hraw bookmark hparse).1
  · intro hkeys raw hraw bookmark hparse
    have hkey := hkeys bookmark.key ⟨raw, hraw, bookmark, hparse, rfl⟩
    obtain ⟨other, hother, found, hfound, hsame, hitem⟩ := h bookmark.key hkey
    refine ⟨hkey, ⟨found, ?_, hitem⟩, fun hunique => ?_⟩
    · rw [PagedSource.url_eq_key hfound, PagedSource.url_eq_key hparse, hsame]
    · rw [← hunique other hother found hfound hsame]
      exact hitem

/-- **When a run leaves no entry of the remote list uncollected.** -/
theorem ran_complete_iff (hknown : KnownCollected options source s)
    (h : Ran options source s s') :
    PagedComplete options source s' ↔
      CarriesOn options.isHttpUrl source (knownKeys s.stored) s.remote := by
  rw [(hknown.ran h).complete_iff]
  obtain ⟨hbound, trace, result, hrun, hserves, rfl⟩ := h
  obtain ⟨fresh, n, rfl, hcollected⟩ := collect_runs hrun hserves
  rw [← hcollected.complete_iff hbound]
  exact forall₂_congr fun key _ => knownKeys_after

/--
**In every history from an empty baseline, a run leaves no entry of the list uncollected exactly if
it meets the condition**, whatever the runs before it have left out.
-/
theorem pagedRuns_complete (hreached : PagedReached options source s)
    (h : Ran options source s s') :
    PagedComplete options source s' ↔
      CarriesOn options.isHttpUrl source (knownKeys s.stored) s.remote :=
  ran_complete_iff hreached.knownCollected h

end Histories

namespace PagedRuns.Sample

def options : CollectorOptions where
  sources := [("github_stars", { enabled := true, config := [("token", .str "t")] })]
  hasAttachmentStore := false
  stagingDir := "/tmp"
  isHttpUrl url := "https://".toList.isPrefixOf url.toList
  isLetterOrNumber c := c.isAlphanum

def star (url : String) : Json := .obj [("html_url", .str url)]

/-- The calls of a run that asks for as many pages, and their answers. -/
def pagesRead (s : PagedState) (count : Nat) : List (Event PagedCall PagedCall.Answer) :=
  ⟨.getState "baseline:github_stars", .ok s.stored⟩ :: (List.range count).map fun i =>
    ⟨.starredPage "t" (i + 1), .ok (200, some (.arr (pageOf 100 s.remote i)))⟩

/-- A run of GitHub that is given its pages. -/
theorem ran_pages {s : PagedState} (count : Nat) (fresh : List Bookmark)
    (hbound : s.remote.length ≤ 10000)
    (h : (collectGithubStars options).replay (pagesRead s count) =
      some (.ok (bookmarkResult "github_stars" ["github"] fresh (knownKeys s.stored)))) :
    Ran options .githubStars s
      (s.after .githubStars
        (bookmarkResult "github_stars" ["github"] fresh (knownKeys s.stored))) := by
  refine ⟨hbound, _, _, Prog.runs_of_replay h, fun e he => ?_, rfl⟩
  rcases List.mem_cons.mp he with rfl | he
  · intro _ state hstate
    exact (Except.ok.inj hstate).symm
  · obtain ⟨i, -, rfl⟩ := List.mem_map.mp he
    intro status payload hreply _
    have hpair := Except.ok.inj hreply
    exact (Option.some.inj (Prod.mk.inj hpair).2).symm

/-- A list of two pages is gone through if the first has a new key, and no entry that is dropped. -/
theorem carriesOn_two {known : List String} {remote : List Json} (h : remote.length ≤ 200)
    (hfresh : freshAt known (PagedSource.githubStars.pageBookmarks options.isHttpUrl remote) 0 ≠ [])
    (hparsed : ∀ raw ∈ pageOf 100 remote 0,
      (parseGithubStar options.isHttpUrl raw).isSome = true) :
    CarriesOn options.isHttpUrl .githubStars known remote := by
  rintro i ⟨_, -, ⟨raw, hraw, -⟩, -⟩
  cases i with
  | zero => exact ⟨freshAt_ne_nil.mp hfresh, fun _ => hparsed⟩
  | succ i =>
    -- nothing is behind the second page
    have hsize : PagedSource.size .githubStars = 100 := rfl
    rw [List.drop_eq_nil_of_le (by rw [hsize]; omega)] at hraw
    cases hraw

def bookmarkOf (url : String) : Bookmark := ⟨url, url, url⟩

/-- One star, and an entry without a URL. -/
def oneStar : PagedState where
  remote := [star "https://a", .null]
  stored := none
  collected := []

def oneStarRun : PagedState :=
  oneStar.after .githubStars
    (bookmarkResult "github_stars" ["github"] [bookmarkOf "https://a"] (knownKeys none))

/-- After the first run a full page of stars is added, and one more star, which is behind that page. -/
def grown : PagedState :=
  { oneStarRun with
    remote := List.replicate 100 (star "https://c") ++ [star "https://b"] ++ oneStarRun.remote }

def grownRun : PagedState :=
  grown.after .githubStars (bookmarkResult "github_stars" ["github"]
    (List.replicate 100 (bookmarkOf "https://c") ++ [bookmarkOf "https://b"])
    (knownKeys grown.stored))

theorem pagedRuns_complete_grown : PagedComplete options .githubStars grownRun := by
  have hfirst : Ran options .githubStars oneStar oneStarRun :=
    ran_pages 1 _ (by decide) (by decide +kernel)
  have hreached : PagedReached options .githubStars grown := by
    refine ⟨oneStar, by decide +kernel, rfl, ?_⟩
    exact (Relation.ReflTransGen.single (.run hfirst)).tail (.grow _)
  have hgrown : Ran options .githubStars grown grownRun :=
    ran_pages 2 _ (by decide +kernel) (by decide +kernel)
  exact (pagedRuns_complete hreached hgrown).mpr
    (carriesOn_two (by decide +kernel) (by decide +kernel) (by decide +kernel))

/-- A full page with an entry that has no URL, and one star after that page. -/
def dropped : PagedState where
  remote := .null :: (List.replicate 99 (star "https://a") ++ [star "https://b"])
  stored := none
  collected := []

/-- The star after the page is not collected by a first run. -/
theorem dropped_left_out :
    ∃ s', PagedReached options .githubStars dropped ∧ Ran options .githubStars dropped s' ∧
      ¬PagedComplete options .githubStars s' := by
  refine ⟨_, ⟨dropped, by decide +kernel, rfl, .refl⟩,
    ran_pages 1 (List.replicate 99 (bookmarkOf "https://a")) (by decide +kernel)
      (by decide +kernel), ?_⟩
  intro hcomplete
  have hkey := (hcomplete (star "https://b") (by simp [PagedState.after, dropped])
    (bookmarkOf "https://b") (by decide +kernel)).1
  exact absurd hkey (by decide +kernel)

end PagedRuns.Sample

end InboxServer
