import InboxServer.Infra.FirstSeen
import InboxServer.Worker.ScrollExtract

/-!
# What scrolling collects

* `keyed_scroll_complete` — with a stable key, `scrollExtract` returns the first item of each key in
  the views that it has read, and reads on until a view has no new key or is told to stop
-/

namespace InboxServer

open Infra

variable {α : Type} {options : ScrollOptions α} {stableKey : α → String}

/-- The items that a call of a run has shown. -/
def viewOf (options : ScrollOptions α) : Event ScrollCall ScrollCall.Answer → Option (List α)
  | ⟨.evaluate, .ok input⟩ => some (options.parse input)
  | _ => none

/-- The views that a run has read. -/
def viewsOf (options : ScrollOptions α) (trace : List (Event ScrollCall ScrollCall.Answer)) :
    List (List α) :=
  trace.filterMap (viewOf options)

/-- A call of a run has thrown. -/
def threw : Event ScrollCall ScrollCall.Answer → Bool
  | ⟨.evaluate, .error _⟩ | ⟨.scrollDocumentToEnd, .error _⟩ | ⟨.waitForTimeout _, .error _⟩ => true
  | _ => false

/-- The map with these items set. -/
def keyed (stableKey : α → String) (items : List α) : Entries α :=
  items.map fun item => (stableKey item, item)

theorem mergeView_keyed (items current : List α) :
    mergeView stableKey (keyed stableKey items) current =
      (keyed stableKey (items ++ firstBy stableKey (items.map stableKey) current),
        (firstBy stableKey (items.map stableKey) current).length) := by
  induction current generalizing items with
  | nil => simp [mergeView]
  | cons item current ih =>
    have hany : (keyed stableKey items).any (·.1 = stableKey item) = true ↔
        stableKey item ∈ items.map stableKey := by
      rw [keyed, List.any_map, List.any_eq_true, List.mem_map]
      simp only [Function.comp_apply, decide_eq_true_eq]
    by_cases hmem : stableKey item ∈ items.map stableKey
    · rw [mergeView, if_pos (hany.mpr hmem), ih, firstBy_cons_mem hmem]
    · have hsnoc : keyed stableKey items ++ [(stableKey item, item)] =
          keyed stableKey (items ++ [item]) := by
        simp [keyed]
      have hcongr : firstBy stableKey ((items ++ [item]).map stableKey) current =
          firstBy stableKey (stableKey item :: items.map stableKey) current :=
        firstBy_congr (fun k => by simp [or_comm]) current
      rw [mergeView, if_neg (mt hany.mp hmem), hsnoc, ih, hcongr, firstBy_cons_not_mem hmem]
      simp

/-- What a view adds, after earlier views showed `seen`. -/
theorem look_keyed (hkey : options.stableKey = some stableKey) {state : ScrollState α}
    {seen : List α} (hstate : state.keyedItems = keyed stableKey (firstBy stableKey [] seen))
    (current : List α) :
    (∀ item ∈ current, stableKey item ∈ seen.map stableKey) ∧ state.look options current = none ∨
      ∃ state', state.look options current = some state' ∧
        state'.keyedItems = keyed stableKey (firstBy stableKey [] (seen ++ current)) := by
  have hnew : firstBy stableKey ((firstBy stableKey [] seen).map stableKey) current =
      firstBy stableKey (seen.map stableKey) current :=
    firstBy_congr (fun k => by rw [mem_map_firstBy]; simp) current
  have happend : firstBy stableKey [] (seen ++ current) =
      firstBy stableKey [] seen ++ firstBy stableKey (seen.map stableKey) current := by
    rw [firstBy_append, List.nil_append]
  unfold ScrollState.look
  rw [hkey]
  simp only [hstate, mergeView_keyed, hnew]
  by_cases hnone : firstBy stableKey (seen.map stableKey) current = []
  · left
    exact ⟨firstBy_eq_nil_iff.mp hnone, by rw [hnone]; rfl⟩
  · right
    rw [if_neg (by simpa using hnone)]
    exact ⟨_, rfl, by rw [happend]⟩

theorem items_keyed (hkey : options.stableKey = some stableKey) {state : ScrollState α}
    {seen : List α} (hstate : state.keyedItems = keyed stableKey (firstBy stableKey [] seen)) :
    state.items options = firstBy stableKey [] seen := by
  simp [ScrollState.items, hkey, hstate, keyed, Function.comp_def]

theorem viewsOf_cons (e : Event ScrollCall ScrollCall.Answer)
    (trace : List (Event ScrollCall ScrollCall.Answer)) :
    viewsOf options (e :: trace) = (viewOf options e).toList ++ viewsOf options trace := by
  unfold viewsOf
  rw [List.filterMap_cons]
  cases viewOf options e <;> rfl

/-- Why the loop may end before its last round. -/
def StopsAt (options : ScrollOptions α) (stableKey : α → String) (before last : List α) : Prop :=
  (∀ item ∈ last, stableKey item ∈ before.map stableKey) ∨ options.shouldStop last = true

/-- What has to be said of the views that the loop reads after those that showed `seen`. -/
def ScrollsOn (options : ScrollOptions α) (stableKey : α → String) (rounds : Nat) (seen : List α)
    (views : List (List α)) (result : Except Thrown (List α)) : Prop :=
  views.length ≤ rounds ∧ ∀ items, result = .ok items →
    items = firstBy stableKey [] (seen ++ views.flatten) ∧
    (views.length < rounds → ∃ earlier last, views = earlier ++ [last] ∧
      StopsAt options stableKey (seen ++ earlier.flatten) last)

theorem ScrollsOn.thrown {rounds : Nat} {seen : List α} {views : List (List α)} {e : Thrown}
    (h : views.length ≤ rounds) : ScrollsOn options stableKey rounds seen views (.error e) :=
  ⟨h, fun items hresult => (by cases hresult)⟩

/-- The loop ends with a view. -/
theorem ScrollsOn.last {rounds : Nat} {seen view : List α}
    (h : StopsAt options stableKey seen view) :
    ScrollsOn options stableKey (rounds + 1) seen [view]
      (.ok (firstBy stableKey [] (seen ++ view))) := by
  refine ⟨by simp, fun items hresult => ?_⟩
  cases hresult
  exact ⟨by simp, fun _ => ⟨[], view, rfl, by simpa using h⟩⟩

/-- The loop goes on after a view. -/
theorem ScrollsOn.cons {rounds : Nat} {seen view : List α} {views : List (List α)}
    {result : Except Thrown (List α)}
    (h : ScrollsOn options stableKey rounds (seen ++ view) views result) :
    ScrollsOn options stableKey (rounds + 1) seen (view :: views) result := by
  refine ⟨by simpa using h.1, fun items hresult => ?_⟩
  obtain ⟨hitems, hstops⟩ := h.2 items hresult
  refine ⟨by rw [hitems, List.flatten_cons, List.append_assoc], fun hlt => ?_⟩
  obtain ⟨earlier, last, rfl, hlast⟩ := hstops (by simpa using hlt)
  exact ⟨view :: earlier, last, rfl, by rwa [List.flatten_cons, ← List.append_assoc]⟩

/-- What a run of the loop returns, after the views of earlier rounds showed `seen`. -/
theorem scrollRounds_runs (seen : List α) (hkey : options.stableKey = some stableKey) {rounds : Nat}
    {trace : List (Event ScrollCall ScrollCall.Answer)}
    {result : Except Thrown (List α)} {state : ScrollState α}
    (hstate : state.keyedItems = keyed stableKey (firstBy stableKey [] seen))
    (h : (scrollRounds options rounds state).Runs trace result) :
    ScrollsOn options stableKey rounds seen (viewsOf options trace) result := by
  induction rounds generalizing seen trace state with
  | zero =>
    obtain ⟨rfl, rfl⟩ := Prog.runs_ret.mp h
    refine ⟨le_rfl, fun items hresult => ⟨?_, fun hlt => absurd hlt (Nat.lt_irrefl 0)⟩⟩
    cases hresult
    simpa [viewsOf] using items_keyed hkey hstate
  | succ rounds ih =>
    obtain ⟨reply, trace, rfl, hlooked⟩ := Prog.runs_call.mp h
    rw [viewsOf_cons]
    rcases reply with e | input
    · obtain ⟨rfl, rfl⟩ := Prog.runs_ret.mp hlooked
      exact .thrown (Nat.zero_le _)
    dsimp only at hlooked
    rcases look_keyed hkey hstate (options.parse input) with
      ⟨hseen, hnone⟩ | ⟨state', hsome, hstate'⟩
    · -- no new key
      rw [hnone] at hlooked
      obtain ⟨rfl, rfl⟩ := Prog.runs_ret.mp hlooked
      have hsame : firstBy stableKey [] (seen ++ options.parse input) = firstBy stableKey [] seen := by
        rw [firstBy_append, List.nil_append, firstBy_eq_nil_iff.mpr hseen, List.append_nil]
      rw [items_keyed hkey hstate, ← hsame]
      exact .last (Or.inl hseen)
    simp only [hsome] at hlooked
    split at hlooked
    · next hstop =>
      obtain ⟨rfl, rfl⟩ := Prog.runs_ret.mp hlooked
      rw [items_keyed hkey hstate']
      exact .last (Or.inr hstop)
    obtain ⟨reply, trace, rfl, hscrolled⟩ := Prog.runs_call.mp hlooked
    rw [viewsOf_cons]
    rcases reply with e | _
    · obtain ⟨rfl, rfl⟩ := Prog.runs_ret.mp hscrolled
      exact .thrown (by simp [viewOf, viewsOf])
    obtain ⟨reply, trace, rfl, hwaited⟩ := Prog.runs_call.mp hscrolled
    rw [viewsOf_cons]
    rcases reply with e | _
    · obtain ⟨rfl, rfl⟩ := Prog.runs_ret.mp hwaited
      exact .thrown (by simp [viewOf, viewsOf])
    exact (ih _ hstate' hwaited).cons

/-- The loop returns unless one of its calls throws. -/
theorem scrollRounds_returns {rounds : Nat} {trace : List (Event ScrollCall ScrollCall.Answer)}
    {result : Except Thrown (List α)} {state : ScrollState α}
    (h : (scrollRounds options rounds state).Runs trace result) :
    (∃ items, result = .ok items) ↔ ∀ e ∈ trace, threw e = false := by
  induction rounds generalizing trace state with
  | zero =>
    obtain ⟨rfl, rfl⟩ := Prog.runs_ret.mp h
    simp
  | succ rounds ih =>
    obtain ⟨reply, trace, rfl, hlooked⟩ := Prog.runs_call.mp h
    rcases reply with e | input
    · obtain ⟨rfl, rfl⟩ := Prog.runs_ret.mp hlooked
      simp [threw]
    dsimp only at hlooked
    split at hlooked
    · obtain ⟨rfl, rfl⟩ := Prog.runs_ret.mp hlooked
      simp [threw]
    split at hlooked
    · obtain ⟨rfl, rfl⟩ := Prog.runs_ret.mp hlooked
      simp [threw]
    obtain ⟨reply, trace, rfl, hscrolled⟩ := Prog.runs_call.mp hlooked
    rcases reply with e | _
    · obtain ⟨rfl, rfl⟩ := Prog.runs_ret.mp hscrolled
      simp [threw]
    obtain ⟨reply, trace, rfl, hwaited⟩ := Prog.runs_call.mp hscrolled
    rcases reply with e | _
    · obtain ⟨rfl, rfl⟩ := Prog.runs_ret.mp hwaited
      simp [threw]
    rw [ih hwaited]
    simp [threw]

/--
**A keyed extraction keeps all that it has seen.** A run reads at most 20 views, and returns unless
one of its calls throws. What it returns is the first item of each key in the views, in order, and it
has ended before the 20th view only because the last one had no new key, or was one to stop at.
-/
theorem keyed_scroll_complete (options : ScrollOptions α) (stableKey : α → String)
    (hkey : options.stableKey = some stableKey)
    (trace : List (Event ScrollCall ScrollCall.Answer)) (result : Except Thrown (List α))
    (hrun : (scrollExtract options).Runs trace result) :
    (viewsOf options trace).length ≤ 20 ∧
    ((∃ items, result = .ok items) ↔ ∀ e ∈ trace, threw e = false) ∧
    ∀ items, result = .ok items →
      items = firstBy stableKey [] (viewsOf options trace).flatten ∧
      ((viewsOf options trace).length < 20 → ∃ earlier last, viewsOf options trace = earlier ++ [last] ∧
        ((∀ item ∈ last, stableKey item ∈ earlier.flatten.map stableKey) ∨
          options.shouldStop last = true)) := by
  obtain ⟨hviews, hitems⟩ := scrollRounds_runs [] hkey rfl hrun
  exact ⟨hviews, scrollRounds_returns hrun, hitems⟩

namespace Sample

/-- Texts that are their own keys. -/
def texts : ScrollOptions String where
  parse := List.filterMap fun
    | .str s => some s
    | _ => none
  shouldStop _ := false
  stableKey := some id

/-- Two views of one length, with one text in common. -/
def twoViews : List (Event ScrollCall ScrollCall.Answer) :=
  [ ⟨.evaluate, .ok [.str "a", .str "b"]⟩, ⟨.scrollDocumentToEnd, .ok ()⟩,
    ⟨.waitForTimeout 1500, .ok ()⟩,
    ⟨.evaluate, .ok [.str "b", .str "c"]⟩, ⟨.scrollDocumentToEnd, .ok ()⟩,
    ⟨.waitForTimeout 1500, .ok ()⟩,
    ⟨.evaluate, .ok [.str "c"]⟩ ]

theorem keyed_scroll_complete_twoViews :
    (scrollExtract texts).Runs twoViews (.ok ["a", "b", "c"]) ∧
      (viewsOf texts twoViews).length = 3 ∧
      ["a", "b", "c"] = firstBy id [] (viewsOf texts twoViews).flatten ∧
      ∃ earlier last, viewsOf texts twoViews = earlier ++ [last] ∧
        ((∀ item ∈ last, id item ∈ earlier.flatten.map id) ∨ texts.shouldStop last = true) := by
  have hrun : (scrollExtract texts).Runs twoViews (.ok ["a", "b", "c"]) :=
    Prog.runs_of_replay (by decide +kernel)
  have hviews : (viewsOf texts twoViews).length = 3 := by decide +kernel
  obtain ⟨-, -, hitems⟩ := keyed_scroll_complete texts id rfl twoViews _ hrun
  obtain ⟨hfirst, hends⟩ := hitems _ rfl
  exact ⟨hrun, hviews, hfirst, hends (by omega)⟩

end Sample

end InboxServer
