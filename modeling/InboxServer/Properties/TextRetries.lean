import InboxServer.Worker.TextConsumer

/-!
# Retries of a text item

The passes of the text consumer over one item, each over what the one before it has put back.

* `retries_unchanged` — the item stays what it was in every pass exactly when no pass in which it
  gets tags is unsuccessful
-/

namespace InboxServer.TextConsumer

open Infra

/-! ## What a trace shows -/

/-- The items that were put back in the queue, or in the dead-letter queue. -/
def returned (trace : List ConsumerEvent) : List TextItem :=
  trace.filterMap fun
    | ⟨.requeue item, _⟩ | ⟨.moveToDlq item, _⟩ => some item
    | _ => none

def requeued (trace : List ConsumerEvent) : List TextItem :=
  trace.filterMap fun
    | ⟨.requeue item, _⟩ => some item
    | _ => none

def marked (trace : List ConsumerEvent) : List String :=
  trace.filterMap fun
    | ⟨.markDone fp, _⟩ => some fp
    | _ => none

def sent (trace : List ConsumerEvent) : List String :=
  trace.filterMap fun
    | ⟨.dispatch content, _⟩ => some content
    | _ => none

/-- The tags of the smart-tag step. -/
def generated (trace : List ConsumerEvent) : List String :=
  trace.flatMap fun
    | ⟨.generateTags _, tags⟩ => tags
    | _ => []

/-- The content was accepted, and neither the mark nor the count raised. -/
def Succeeded (trace : List ConsumerEvent) : Prop :=
  (∃ content, (⟨.dispatch content, .ok .ok⟩ : ConsumerEvent) ∈ trace) ∧
    (∃ fp, (⟨.markDone fp, .ok ()⟩ : ConsumerEvent) ∈ trace) ∧
    (⟨.dailyIncr, .ok ()⟩ : ConsumerEvent) ∈ trace

@[simp] theorem returned_append (first second : List ConsumerEvent) :
    returned (first ++ second) = returned first ++ returned second := List.filterMap_append

@[simp] theorem marked_append (first second : List ConsumerEvent) :
    marked (first ++ second) = marked first ++ marked second := List.filterMap_append

@[simp] theorem sent_append (first second : List ConsumerEvent) :
    sent (first ++ second) = sent first ++ sent second := List.filterMap_append

@[simp] theorem generated_append (first second : List ConsumerEvent) :
    generated (first ++ second) = generated first ++ generated second := List.flatMap_append

theorem requeued_subset (trace : List ConsumerEvent) : requeued trace ⊆ returned trace := by
  intro item hitem
  obtain ⟨⟨call, answer⟩, hevent, hcall⟩ := List.mem_filterMap.mp hitem
  refine List.mem_filterMap.mpr ⟨⟨call, answer⟩, hevent, ?_⟩
  cases call <;> simp_all

/-! ## One pass -/

/-- The calls after the processor are about neither the content nor its tags. -/
structure Quiet (trace : List ConsumerEvent) : Prop where
  sends : sent trace = []
  generates : generated trace = []

theorem Quiet.append {first second : List ConsumerEvent} (hfirst : Quiet first)
    (hsecond : Quiet second) : Quiet (first ++ second) :=
  ⟨by rw [sent_append, hfirst.sends, hsecond.sends]; rfl,
    by rw [generated_append, hfirst.generates, hsecond.generates]; rfl⟩

/-- A failure puts the item back in one of the queues, with another count. -/
theorem handleFail_runs {item : TextItem} {trace : List ConsumerEvent}
    {result : TextItem × Except Unit Unit} (h : (handleFail item).Runs trace result) :
    Quiet trace ∧ result.1.content = item.content ∧ returned trace = [result.1] ∧
      marked trace = [] ∧ (⟨.dailyIncr, .ok ()⟩ : ConsumerEvent) ∉ trace := by
  unfold handleFail at h
  dsimp only at h
  split at h <;>
  · obtain ⟨answer, rest, rfl, hrest⟩ := Prog.runs_call.mp h
    obtain ⟨rfl, rfl⟩ := Prog.runs_ret.mp hrest
    exact ⟨⟨rfl, rfl⟩, rfl, rfl, rfl, by simp⟩

/-- After an outcome the item is put back, unless all went well or something raised. -/
theorem settle_runs {fp : String} {item : TextItem} {outcome : Except Unit DispatchOutcome}
    {trace : List ConsumerEvent} {result : TextItem × Except Unit Unit}
    (h : (settle fp item outcome).Runs trace result) :
    Quiet trace ∧ result.1.content = item.content ∧
      (∀ other ∈ returned trace, other.content = item.content) ∧ (∀ other ∈ marked trace, other = fp) ∧
      (result.2 = .ok () → returned trace = [] → outcome = .ok .ok ∧
        (⟨.markDone fp, .ok ()⟩ : ConsumerEvent) ∈ trace ∧
        (⟨.dailyIncr, .ok ()⟩ : ConsumerEvent) ∈ trace) ∧
      ((⟨.dailyIncr, .ok ()⟩ : ConsumerEvent) ∈ trace → result.2 = .ok () ∧ returned trace = []) := by
  rcases outcome with ⟨⟨⟩⟩ | _ | _ | _
  · obtain ⟨rfl, rfl⟩ := Prog.runs_ret.mp h
    exact ⟨⟨rfl, rfl⟩, rfl, by simp [returned], by simp [marked], by simp, by simp⟩
  · obtain ⟨⟨⟨⟩⟩ | ⟨⟨⟩⟩, rest, rfl, hmark⟩ := Prog.runs_call.mp h
    · obtain ⟨rfl, rfl⟩ := Prog.runs_ret.mp hmark
      exact ⟨⟨rfl, rfl⟩, rfl, by simp [returned], by simp [marked], by simp, by simp⟩
    · obtain ⟨answer, rest, rfl, hcount⟩ := Prog.runs_call.mp hmark
      obtain ⟨rfl, rfl⟩ := Prog.runs_ret.mp hcount
      refine ⟨⟨rfl, rfl⟩, rfl, by simp [returned], by simp [marked], ?_, ?_⟩
      · rintro rfl -
        exact ⟨rfl, by simp, by simp⟩
      · intro hmem
        simp only [List.mem_cons, Sigma.mk.injEq, reduceCtorEq, false_and, true_and,
          List.not_mem_nil, or_false, false_or, heq_eq_eq] at hmem
        exact ⟨hmem.symm, rfl⟩
  · obtain ⟨answer, rest, rfl, hrest⟩ := Prog.runs_call.mp h
    obtain ⟨rfl, rfl⟩ := Prog.runs_ret.mp hrest
    exact ⟨⟨rfl, rfl⟩, rfl, by simp [returned], by simp [marked], by simp [returned], by simp⟩
  · obtain ⟨hquiet, hcontent, hreturned, hmarked, hcount⟩ := handleFail_runs h
    exact ⟨hquiet, hcontent, by simp [hreturned, hcontent], by simp [hmarked],
      by simp [hreturned], fun hmem => absurd hmem hcount⟩

/-- What the processor makes of an item, with the tags it was given. -/
def prefixed (tags : List String) (text : String) : String := fmtFlomoTags tags ++ " " ++ text

/-- The item as the processor leaves it. -/
def tagged (tags : List String) (item : TextItem) : TextItem :=
  match tags with
  | [] => item
  | tags => { item with content := some (prefixed tags item.text) }

theorem dispatch_runs {item : TextItem} {trace : List ConsumerEvent}
    {result : TextItem × Except Unit DispatchOutcome} (h : (dispatch item).Runs trace result) :
    result.1 = item ∧ generated trace = [] ∧ returned trace = [] ∧ marked trace = [] ∧
      (∀ content ∈ sent trace, item.content = some content) ∧
      (⟨.dailyIncr, .ok ()⟩ : ConsumerEvent) ∉ trace ∧
      (result.2 = .ok .ok ↔ ∃ content, (⟨.dispatch content, .ok .ok⟩ : ConsumerEvent) ∈ trace) := by
  unfold dispatch at h
  split at h
  next =>
    obtain ⟨rfl, rfl⟩ := Prog.runs_ret.mp h
    exact ⟨rfl, rfl, rfl, rfl, by simp [sent], by simp, by simp⟩
  next content hcontent =>
    obtain ⟨answer, rest, rfl, hrest⟩ := Prog.runs_call.mp h
    obtain ⟨rfl, rfl⟩ := Prog.runs_ret.mp hrest
    refine ⟨rfl, rfl, rfl, rfl, by simp [sent, hcontent], by simp, ?_⟩
    constructor
    · rintro rfl
      exact ⟨content, by simp⟩
    · rintro ⟨other, hmem⟩
      simp only [List.mem_singleton, Sigma.mk.injEq, ConsumerCall.dispatch.injEq] at hmem
      obtain ⟨rfl, hanswer⟩ := hmem
      exact (eq_of_heq hanswer).symm

theorem generateSmartTags_runs {env : ConsumerEnv} {content : String} {trace : List ConsumerEvent}
    {tags : List String} (h : (generateSmartTags env content).Runs trace tags) :
    generated trace = tags ∧ returned trace = [] ∧ marked trace = [] ∧ sent trace = [] ∧
      (∀ event ∈ trace, ∃ asked, event.1 = .generateTags asked) := by
  unfold generateSmartTags at h
  split at h
  next =>
    obtain ⟨rfl, rfl⟩ := Prog.runs_ret.mp h
    exact ⟨rfl, rfl, rfl, rfl, by simp⟩
  next =>
    obtain ⟨answer, rest, rfl, hrest⟩ := Prog.runs_call.mp h
    obtain ⟨rfl, rfl⟩ := Prog.runs_ret.mp hrest
    exact ⟨by simp [generated], rfl, rfl, rfl, by simp⟩

/-- The processor sends the item with the tags it was given, and leaves it so. -/
theorem processText_runs {env : ConsumerEnv} {item : TextItem} {trace : List ConsumerEvent}
    {result : TextItem × Except Unit DispatchOutcome} (h : (processText env item).Runs trace result) :
    result.1 = tagged (generated trace) item ∧ returned trace = [] ∧ marked trace = [] ∧
      (∀ content ∈ sent trace, result.1.content = some content) ∧
      (⟨.dailyIncr, .ok ()⟩ : ConsumerEvent) ∉ trace ∧
      (result.2 = .ok .ok ↔ ∃ content, (⟨.dispatch content, .ok .ok⟩ : ConsumerEvent) ∈ trace) := by
  unfold processText at h
  dsimp only at h
  split at h
  next =>
    obtain ⟨first, second, tags, rfl, hfirst, hsecond⟩ := Prog.runs_bind.mp h
    obtain ⟨hgenerated, hreturned, hmarked, hsent, hevents⟩ := generateSmartTags_runs hfirst
    have hsecond : (dispatch (tagged tags item)).Runs second result := by
      cases tags with
      | nil => exact hsecond
      | cons tag tags => exact hsecond
    obtain ⟨hitem, hnone, hreturned', hmarked', hsent', hcount, houtcome⟩ := dispatch_runs hsecond
    refine ⟨by simp [hgenerated, hnone, hitem], by simp [hreturned, hreturned'],
      by simp [hmarked, hmarked'], ?_, ?_, ?_⟩
    · intro content hcontent
      rw [sent_append, hsent, List.nil_append] at hcontent
      rw [hitem]
      exact hsent' content hcontent
    · intro hmem
      rcases List.mem_append.mp hmem with hmem | hmem
      · obtain ⟨asked, hasked⟩ := hevents _ hmem
        cases hasked
      · exact hcount hmem
    · rw [houtcome]
      refine exists_congr fun content => ?_
      rw [List.mem_append]
      constructor
      · exact .inr
      · rintro (hmem | hmem)
        · obtain ⟨asked, hasked⟩ := hevents _ hmem
          cases hasked
        · exact hmem
  next =>
    obtain ⟨hitem, hnone, hreturned, hmarked, hsent, hcount, houtcome⟩ := dispatch_runs h
    refine ⟨by rw [hnone, hitem]; rfl, hreturned, hmarked, ?_, hcount, houtcome⟩
    rw [hitem]
    exact hsent

/-- What one pass over an item can do to it. -/
structure PassSpec (env : ConsumerEnv) (item : TextItem) (trace : List ConsumerEvent) : Prop where
  returns : ∀ other ∈ returned trace, other.content = (tagged (generated trace) item).content
  marks : ∀ fp ∈ marked trace, fp = fingerprint env item
  sends : ∀ content ∈ sent trace, (tagged (generated trace) item).content = some content
  succeeds : generated trace ≠ [] → (returned trace = [] ↔ Succeeded trace)

theorem attempt_runs {env : ConsumerEnv} {item : TextItem} {trace : List ConsumerEvent}
    {result : Except Unit Unit} (h : (attempt env (fingerprint env item) item).Runs trace result) :
    PassSpec env item trace := by
  obtain ⟨first, rest, ⟨processed, outcome⟩, rfl, hfirst, hrest⟩ := Prog.runs_bind.mp h
  obtain ⟨hitem, hreturned, hmarked, hsent, hcount, houtcome⟩ := processText_runs hfirst
  obtain ⟨second, third, ⟨settled, raised⟩, rfl, hsecond, hthird⟩ := Prog.runs_bind.mp hrest
  obtain ⟨hquiet, hcontent, hreturned', hmarked', hok, hcounted⟩ := settle_runs hsecond
  dsimp only at hitem hsent houtcome hcontent hok hcounted
  -- what comes after the `try`: nothing, or the item fails once more
  have hlast : Quiet third ∧ marked third = [] ∧
      (⟨.dailyIncr, .ok ()⟩ : ConsumerEvent) ∉ third ∧
      (∀ other ∈ returned third, other.content = processed.content) ∧
      (raised = .ok () ∧ third = [] ∨ raised = .error () ∧ returned third ≠ []) := by
    rcases raised with ⟨⟨⟩⟩ | ⟨⟨⟩⟩
    · obtain ⟨failed, nothing, ⟨again, answer⟩, rfl, hfailed, hnothing⟩ := Prog.runs_bind.mp hthird
      obtain ⟨rfl, -⟩ := Prog.runs_ret.mp hnothing
      rw [List.append_nil]
      obtain ⟨hquiet', hcontent', hreturned'', hmarked'', hcount'⟩ := handleFail_runs hfailed
      refine ⟨hquiet', hmarked'', hcount', ?_, .inr ⟨rfl, by simp [hreturned'']⟩⟩
      rw [hreturned'']
      intro other hother
      rw [List.mem_singleton.mp hother]
      exact hcontent'.trans hcontent
    · obtain ⟨rfl, -⟩ := Prog.runs_ret.mp hthird
      exact ⟨⟨rfl, rfl⟩, rfl, by simp, by simp [returned], .inl ⟨rfl, rfl⟩⟩
  obtain ⟨hquiet', hmarked'', hcount', hreturned'', hcases⟩ := hlast
  have hgenerated : generated (first ++ (second ++ third)) = generated first := by
    rw [generated_append, (hquiet.append hquiet').generates, List.append_nil]
  constructor
  · intro other hother
    rw [returned_append, hreturned, List.nil_append, returned_append, List.mem_append] at hother
    rw [hgenerated, ← hitem]
    exact hother.elim (hreturned' other) (hreturned'' other)
  · intro fp hfp
    rw [marked_append, hmarked, List.nil_append, marked_append, hmarked'', List.append_nil] at hfp
    exact hmarked' fp hfp
  · intro content hmem
    rw [sent_append, (hquiet.append hquiet').sends, List.append_nil] at hmem
    rw [hgenerated, ← hitem]
    exact hsent content hmem
  · intro _
    rw [returned_append, hreturned, List.nil_append, returned_append]
    constructor
    · intro hnone
      obtain ⟨hsecondNone, hthirdNone⟩ := List.append_eq_nil_iff.mp hnone
      rcases hcases with ⟨rfl, rfl⟩ | ⟨-, hput⟩
      · obtain ⟨houtcomeOk, hmark, hincr⟩ := hok rfl hsecondNone
        obtain ⟨content, hdispatch⟩ := houtcome.mp houtcomeOk
        exact ⟨⟨content, List.mem_append_left _ hdispatch⟩, ⟨fingerprint env item, by simp [hmark]⟩, by simp [hincr]⟩
      · exact absurd hthirdNone hput
    · rintro ⟨-, -, hincr⟩
      have hsecondCount : (⟨.dailyIncr, .ok ()⟩ : ConsumerEvent) ∈ second := by
        simpa [hcount, hcount'] using hincr
      obtain ⟨hsettled, hsecondNone⟩ := hcounted hsecondCount
      rcases hcases with ⟨-, rfl⟩ | ⟨hraised, -⟩
      · rw [hsecondNone]
        rfl
      · rw [hsettled] at hraised
        cases hraised

/-- The calls before the processor ask for something, and change nothing. -/
def ConsumerCall.asks : ConsumerCall → Bool
  | .isDone _ | .tokenAcquire => true
  | _ => false

theorem PassSpec.ask {env : ConsumerEnv} {item : TextItem} {call : ConsumerCall}
    {answer : call.Answer} {trace : List ConsumerEvent} (hcall : call.asks = true)
    (h : PassSpec env item trace) : PassSpec env item (⟨call, answer⟩ :: trace) := by
  cases call with
  | isDone | tokenAcquire =>
    refine ⟨h.returns, h.marks, h.sends, fun hgenerated => (h.succeeds hgenerated).trans ?_⟩
    simp [Succeeded]
  | _ => cases hcall

/-- A pass that does not get to the processor puts the item back as it is, or not at all. -/
theorem consumeItem_runs {env : ConsumerEnv} {item : TextItem} {trace : List ConsumerEvent}
    {result : Except Unit Unit} (h : (consumeItem env item).Runs trace result) :
    PassSpec env item trace := by
  have hnothing : PassSpec env item [] :=
    ⟨by simp [returned], by simp [marked], by simp [sent], fun hgenerated => absurd rfl hgenerated⟩
  obtain ⟨answer, rest, rfl, hrest⟩ := Prog.runs_call.mp h
  refine PassSpec.ask rfl ?_
  rcases answer with ⟨⟨⟩⟩ | _ | _
  · obtain ⟨rfl, -⟩ := Prog.runs_ret.mp hrest
    exact hnothing
  · dsimp only at hrest
    split at hrest
    next =>
      obtain ⟨answer, rest, rfl, htoken⟩ := Prog.runs_call.mp hrest
      refine PassSpec.ask rfl ?_
      rcases answer with ⟨⟨⟩⟩ | _ | _
      · obtain ⟨rfl, -⟩ := Prog.runs_ret.mp htoken
        exact hnothing
      · obtain ⟨answer, rest, rfl, hrequeue⟩ := Prog.runs_call.mp htoken
        obtain ⟨rfl, -⟩ := Prog.runs_ret.mp hrequeue
        exact ⟨by simp [returned, generated, tagged], by simp [marked], by simp [sent],
          fun hgenerated => absurd rfl hgenerated⟩
      · exact attempt_runs htoken
    next => exact attempt_runs hrest
  · obtain ⟨rfl, -⟩ := Prog.runs_ret.mp hrest
    exact hnothing

/-! ## Passes over one item -/

/-- Passes that each take what the one before them put back, and the item that the next one takes. -/
inductive Passes (env : ConsumerEnv) (first : TextItem) :
    List (List ConsumerEvent) → TextItem → Prop
  | start : Passes env first [] first
  | pass {traces : List (List ConsumerEvent)} {item next : TextItem} {trace : List ConsumerEvent}
      {result : Except Unit Unit} (before : Passes env first traces item)
      (run : (consumeItem env item).Runs trace result) (back : next ∈ requeued trace) :
      Passes env first (traces ++ [trace]) next

/--
The item is what it was: where it is put back, where it is marked, and where it is sent, there with
one prefix if this pass has been given tags.
-/
structure Unchanged (env : ConsumerEnv) (first : TextItem) (trace : List ConsumerEvent) : Prop where
  returns : ∀ item ∈ returned trace,
    item.content = first.content ∧ fingerprint env item = fingerprint env first
  marks : ∀ fp ∈ marked trace, fp = fingerprint env first
  sends : ∀ content ∈ sent trace, content = (tagged (generated trace) first).text

theorem fingerprint_congr (env : ConsumerEnv) {item other : TextItem}
    (h : item.content = other.content) : fingerprint env item = fingerprint env other := by
  rw [fingerprint, fingerprint, TextItem.text, TextItem.text, h]

/-- The processor's prefix depends on nothing of the item but its content. -/
theorem tagged_content_congr (tags : List String) {item other : TextItem}
    (h : item.content = other.content) : (tagged tags item).content = (tagged tags other).content := by
  cases tags with
  | nil => exact h
  | cons tag tags =>
    show some (prefixed (tag :: tags) item.text) = some (prefixed (tag :: tags) other.text)
    rw [TextItem.text, TextItem.text, h]

theorem prefixed_ne (tags : List String) (text : String) : prefixed tags text ≠ text := by
  intro h
  have hlength := congrArg String.length h
  simp only [prefixed, String.length_append] at hlength
  have hspace : (" " : String).length = 1 := rfl
  omega

theorem tagged_content_of_ne {tags : List String} (h : tags ≠ []) (item : TextItem) :
    (tagged tags item).content = some (prefixed tags item.text) := by
  cases tags with
  | nil => exact absurd rfl h
  | cons tag tags => rfl

/-- A pass over an item with the content of the first one leaves it so, unless it tagged it in vain. -/
theorem PassSpec.unchanged_iff {env : ConsumerEnv} {first item : TextItem}
    {trace : List ConsumerEvent} (h : PassSpec env item trace)
    (hcontent : item.content = first.content) :
    Unchanged env first trace ↔ (generated trace ≠ [] → Succeeded trace) := by
  have htext : item.text = first.text := by rw [TextItem.text, TextItem.text, hcontent]
  have hmarked : ∀ fp ∈ marked trace, fp = fingerprint env first := by
    intro fp hfp
    rw [h.marks fp hfp, fingerprint_congr env hcontent]
  have hsent : ∀ content ∈ sent trace, content = (tagged (generated trace) first).text := by
    intro content hmem
    rw [TextItem.text, ← tagged_content_congr _ hcontent, h.sends content hmem]
    rfl
  by_cases hgenerated : generated trace = []
  · refine iff_of_true ⟨?_, hmarked, hsent⟩ fun hne => absurd hgenerated hne
    intro other hother
    have hother := h.returns other hother
    rw [hgenerated] at hother
    exact ⟨hother.trans hcontent, fingerprint_congr env (hother.trans hcontent)⟩
  · have htagged := tagged_content_of_ne hgenerated item
    rw [← h.succeeds hgenerated]
    constructor
    · intro hunchanged _
      -- an item that is put back has the prefix in front of what it was
      rw [List.eq_nil_iff_forall_not_mem]
      intro other hother
      have hsame := (hunchanged.returns other hother).1
      rw [h.returns other hother, htagged] at hsame
      refine prefixed_ne (generated trace) first.text ?_
      rw [← htext]
      conv_rhs => rw [htext, TextItem.text, ← hsame]
      rfl
    · intro hnone
      refine ⟨?_, hmarked, hsent⟩
      rw [hnone hgenerated]
      simp

theorem Passes.content {env : ConsumerEnv} {first item : TextItem}
    {traces : List (List ConsumerEvent)} (h : Passes env first traces item)
    (hunchanged : ∀ trace ∈ traces, Unchanged env first trace) : item.content = first.content := by
  cases h with
  | start => rfl
  | pass before run back =>
    exact ((hunchanged _ (by simp)).returns _ (requeued_subset _ back)).1

/--
**A retried item is what it was, unless it was tagged in vain.** However many passes put the item
back, it keeps its content and its fingerprint, the original fingerprint is the one that is marked,
and what a pass sends is the original content, behind the prefix of the tags of that pass and no
other, exactly when every pass in which the smart-tag step returned tags succeeded.
-/
theorem retries_unchanged (env : ConsumerEnv) {first item : TextItem}
    {traces : List (List ConsumerEvent)} {last : List ConsumerEvent} {result : Except Unit Unit}
    (hpasses : Passes env first traces item) (hlast : (consumeItem env item).Runs last result) :
    (∀ trace ∈ traces ++ [last], Unchanged env first trace) ↔
      ∀ trace ∈ traces ++ [last], generated trace ≠ [] → Succeeded trace := by
  induction hpasses generalizing last result with
  | start =>
    simp only [List.nil_append, List.mem_singleton, forall_eq]
    exact (consumeItem_runs hlast).unchanged_iff rfl
  | @pass traces item next trace result' before run back ih =>
    have ih := ih run
    constructor
    · intro hunchanged trace' htrace'
      rcases List.mem_append.mp htrace' with hbefore | hlast'
      · exact ih.mp (fun trace htrace => hunchanged trace (List.mem_append_left _ htrace)) _ hbefore
      · rw [List.mem_singleton.mp hlast']
        have hcontent := (Passes.pass before run back).content fun trace htrace =>
          hunchanged trace (List.mem_append_left _ htrace)
        exact ((consumeItem_runs hlast).unchanged_iff hcontent).mp (hunchanged last (by simp))
    · intro hcondition
      have hbefore := ih.mpr fun trace htrace => hcondition trace (List.mem_append_left _ htrace)
      intro trace' htrace'
      rcases List.mem_append.mp htrace' with htrace' | hlast'
      · exact hbefore trace' htrace'
      · rw [List.mem_singleton.mp hlast']
        have hcontent := (Passes.pass before run back).content hbefore
        exact ((consumeItem_runs hlast).unchanged_iff hcontent).mpr (hcondition last (by simp))

/-! ### Two passes -/

namespace Sample

/-- The digests of the two contents that the passes below fingerprint. -/
def md5 : String → String
  | "hello" => "5d41402abc4b2a76b9719d911017c592"
  | "#a hello" => "0781d7b89f0ac2af8f89bf27e1da0f89"
  | _ => "d41d8cd98f00b204e9800998ecf8427e"

def env : ConsumerEnv := ⟨md5, "key", true, some 96⟩

def note (content : String) (retry : Option Int) : TextItem := ⟨some content, none, retry, []⟩

/-- A pass that gets to the processor: the tags, what is sent for them, and what comes of it. -/
def pass (content : String) (tags : List String) (text : String)
    (outcome : Except Unit DispatchOutcome) (rest : List ConsumerEvent) : List ConsumerEvent :=
  [⟨.isDone (md5 content), .ok false⟩, ⟨.tokenAcquire, .ok true⟩, ⟨.generateTags content, tags⟩,
    ⟨.dispatch text, outcome⟩] ++ rest

/-- The flomo webhook refuses the item, with the tags in it or without. -/
def refused (tags : List String) (text : String) : List ConsumerEvent :=
  pass "hello" tags text (.ok .fail) [⟨.requeue (note text (some 1)), .ok ()⟩]

/-- It accepts what the next pass sends. -/
def accepted (content : String) (tags : List String) (text : String) : List ConsumerEvent :=
  pass content tags text (.ok .ok) [⟨.markDone (md5 content), .ok ()⟩, ⟨.dailyIncr, .ok ()⟩]

theorem refused_untagged :
    (consumeItem env (note "hello" none)).Runs (refused [] "hello") (.ok ()) :=
  .call (.call (.call (.call (.call (.ret _)))))

theorem refused_tagged :
    (consumeItem env (note "hello" none)).Runs (refused ["a"] "#a hello") (.ok ()) :=
  .call (.call (.call (.call (.call (.ret _)))))

theorem accepted_after_untagged :
    (consumeItem env (note "hello" (some 1))).Runs (accepted "hello" ["b"] "#b hello") (.ok ()) :=
  .call (.call (.call (.call (.call (.call (.ret _))))))

theorem accepted_after_tagged :
    (consumeItem env (note "#a hello" (some 1))).Runs (accepted "#a hello" ["b"] "#b #a hello")
      (.ok ()) :=
  .call (.call (.call (.call (.call (.call (.ret _))))))

/-- The tags come with the pass that succeeds. -/
theorem retries_unchanged_untagged :
    Unchanged env (note "hello" none) (refused [] "hello") ∧
      Unchanged env (note "hello" none) (accepted "hello" ["b"] "#b hello") := by
  have hpasses : Passes env (note "hello" none) ([] ++ [refused [] "hello"]) (note "hello" (some 1)) :=
    .pass .start refused_untagged (by simp [refused, pass, requeued])
  have hsucceeded : ∀ trace ∈ [refused [] "hello"] ++ [accepted "hello" ["b"] "#b hello"],
      generated trace ≠ [] → Succeeded trace := by
    intro trace htrace
    simp only [List.cons_append, List.nil_append, List.mem_cons, List.not_mem_nil, or_false] at htrace
    rcases htrace with rfl | rfl
    · intro hgenerated
      exact absurd rfl hgenerated
    · intro _
      exact ⟨⟨"#b hello", by simp [accepted, pass]⟩, ⟨md5 "hello", by simp [accepted, pass]⟩,
        by simp [accepted, pass]⟩
  have hunchanged := (retries_unchanged env hpasses accepted_after_untagged).mpr hsucceeded
  exact ⟨hunchanged _ (by simp), hunchanged _ (by simp)⟩

/-- A refused pass had tags: the item comes back with them, and is sent with two prefixes. -/
theorem retries_prefixed :
    (consumeItem env (note "hello" none)).Runs (refused ["a"] "#a hello") (.ok ()) ∧
      returned (refused ["a"] "#a hello") = [note "#a hello" (some 1)] ∧
      fingerprint env (note "#a hello" (some 1)) ≠ fingerprint env (note "hello" none) ∧
      (consumeItem env (note "#a hello" (some 1))).Runs
        (accepted "#a hello" ["b"] "#b #a hello") (.ok ()) ∧
      sent (accepted "#a hello" ["b"] "#b #a hello") = ["#b #a hello"] ∧
      marked (accepted "#a hello" ["b"] "#b #a hello") = ["0781d7b89f0ac2af8f89bf27e1da0f89"] ∧
      ¬ Unchanged env (note "hello" none) (refused ["a"] "#a hello") := by
  refine ⟨refused_tagged, rfl, by decide, accepted_after_tagged, rfl, rfl, fun h => ?_⟩
  have hcontent := (h.returns (note "#a hello" (some 1)) (by simp [refused, pass, returned])).1
  exact absurd hcontent (by decide)

end Sample

end InboxServer.TextConsumer
