import InboxServer.Properties.HandlerEffects

/-!
# The order of deliveries within a run

* `dispatch_orderly_iff` — a dispatch-item job is handled in order, whatever the answers are, exactly
  where the archive of a link waits for a destination and no destination is there twice
-/

namespace InboxServer

open Infra

/-! ## Orderly runs -/

/-- A delivery to the destination is started. -/
def deliversTo (destination : String) : HandlerEvent → Bool
  | ⟨.startDelivery delivery, _⟩ => delivery.destination = destination
  | _ => false

/-- The destination is found done, or its delivery is recorded as done. -/
def EndedDone (job : QueueJob) (trace : List HandlerEvent) (destination : String) : Prop :=
  (∃ input, input.effectKey = effectKeyOf job destination ∧
      (⟨.claimEffect input, .ok .done⟩ : HandlerEvent) ∈ trace) ∨
    ∃ finish, finish.outcome = .done ∧
      (⟨.finishEffect (effectKeyOf job destination) finish, .ok ()⟩ : HandlerEvent) ∈ trace

/-- A destination is uncertain or busy, or its limit, its delivery or a call about it fails. -/
def stopsAt : HandlerEvent → Bool
  | ⟨.claimEffect _, .ok (.claimed _)⟩ | ⟨.claimEffect _, .ok .done⟩ => false
  | ⟨.claimEffect _, _⟩ => true
  | ⟨.consumeRateLimit _, .ok (.allowed _)⟩ => false
  | ⟨.consumeRateLimit _, _⟩ => true
  | ⟨.awaitDelivery _, .ok .ok⟩ => false
  | ⟨.awaitDelivery _, _⟩ => true
  | ⟨.finishEffect .., .error _⟩ => true
  | _ => false

/-- A destination is claimed or delivered to. -/
def goesOn : HandlerEvent → Bool
  | ⟨.claimEffect _, _⟩ | ⟨.startDelivery _, _⟩ => true
  | _ => false

/-- The jobs are one article job with the URL, the title and the tags of the link. -/
def IsFollowUp (item : DispatchItem) (jobs : List QueueJob) : Prop :=
  ∃ tags title url requestedAt job, item = .link tags title url ∧ jobs = [job] ∧
    job.payload = .dispatchItem (.article requestedAt tags (title.filter (· ≠ "")) url)

/-- A run handles the destinations in order, and publishes nothing before a link is delivered. -/
structure Orderly (channels : Channels) (job : QueueJob) (item : DispatchItem)
    (trace : List HandlerEvent) (result : Except Thrown JobHandlerResult) : Prop where
  afterClaim : ∀ before delivery r rest, trace = before ++ ⟨.startDelivery delivery, r⟩ :: rest →
    ∃ input attempts, input.destination = delivery.destination ∧
      input.effectKey = delivery.effectKey ∧
      (⟨.claimEffect input, .ok (.claimed attempts)⟩ : HandlerEvent) ∈ before
  once : ∀ destination, trace.countP (deliversTo destination) ≤ 1
  completes : (∃ summary, result = .ok (.completed summary)) ↔
    ∀ destination ∈ matchingDestinations channels item, EndedDone job trace destination
  stops : ∀ before e rest, trace = before ++ e :: rest → stopsAt e = true →
    ∀ e' ∈ rest, goesOn e' = false
  followUp : ∀ jobs r, (⟨.publishJobs jobs, r⟩ : HandlerEvent) ∈ trace → IsFollowUp item jobs ∧
    ∃ destination ∈ matchingDestinations channels item, EndedDone job trace destination

/--
What is neither a claim nor a limit nor a delivery answers as it is meant to: the clock and the
generator give what the schemas accept, and jobs are published.
-/
def Ordinary (zod : Zod) : HandlerEvent → Prop
  | ⟨.now, current⟩ => zod.datetime (toISOString current) = true
  | ⟨.randomUuid, id⟩ => zod.uuid id = true
  | ⟨.publishJobs _, reply⟩ => reply.isOk = true
  | _ => True

/-- Where articles are archived, a link has a destination of its own. -/
def Destined (channels : Channels) : DispatchItem → Prop
  | .link tags title url =>
    channels.archiveEnabled = true → matchingDestinations channels (.link tags title url) ≠ []
  | .text .. | .file .. | .article .. => True

/-! ## The course of the loop -/

/-- What has happened so far: destinations claimed and delivered to, and effects that ended done. -/
structure Course where
  claimed : List String
  started : List String
  ended : List String
  stopped : Bool

def claimedAt : HandlerEvent → Option String
  | ⟨.claimEffect input, .ok (.claimed _)⟩ => some input.destination
  | _ => none

def startedAt : HandlerEvent → Option String
  | ⟨.startDelivery delivery, _⟩ => some delivery.destination
  | _ => none

def endedAt : HandlerEvent → Option String
  | ⟨.claimEffect input, .ok .done⟩ => some input.effectKey
  | ⟨.finishEffect k finish, .ok ()⟩ => if finish.outcome = .done then some k else none
  | _ => none

def Course.next (course : Course) (e : HandlerEvent) : Course where
  claimed := (claimedAt e).toList ++ course.claimed
  started := (startedAt e).toList ++ course.started
  ended := (endedAt e).toList ++ course.ended
  stopped := course.stopped || stopsAt e

def Course.start : Course := ⟨[], [], [], false⟩

/-- What the loop keeps to. -/
def courseProtocol (zod : Zod) (channels : Channels) (job : QueueJob) (item : DispatchItem) :
    Protocol HandlerCall HandlerCall.Answer Course where
  pre course
    | .claimEffect input =>
      course.stopped = false ∧ input.effectKey = effectKeyOf job input.destination
    | .startDelivery delivery =>
      course.stopped = false ∧ delivery.destination ∈ course.claimed ∧
        delivery.destination ∉ course.started ∧
        delivery.effectKey = effectKeyOf job delivery.destination
    | .publishJobs jobs =>
      channels.archiveEnabled = true ∧ IsFollowUp item jobs ∧
        ∀ destination ∈ matchingDestinations channels item,
          effectKeyOf job destination ∈ course.ended
    | _ => True
  rely c r := Ordinary zod ⟨c, r⟩
  post course c r := course.next ⟨c, r⟩

/-- The loop has been through the destinations, all of them done. -/
structure Course.Through (job : QueueJob) (done : List String) (course : Course) : Prop where
  stopped : course.stopped = false
  claimed : ∀ destination ∈ course.claimed, destination ∈ done
  started : ∀ destination ∈ course.started, destination ∈ done
  ended : ∀ destination ∈ done, effectKeyOf job destination ∈ course.ended
  only : ∀ k ∈ course.ended, ∃ destination ∈ done, k = effectKeyOf job destination

theorem effectKeyOf_inj {job : QueueJob} {a b : String} (h : effectKeyOf job a = effectKeyOf job b) :
    a = b := by
  have hlists := congrArg String.toList h
  simp only [effectKeyOf, String.toList_append] at hlists
  exact String.toList_inj.mp (List.append_cancel_left hlists)

/-- The effect of a destination that the loop has not been through is not done. -/
theorem Course.Through.not_ended {job : QueueJob} {done : List String} {course : Course}
    (h : course.Through job done) {destination : String} (hnew : destination ∉ done) :
    effectKeyOf job destination ∉ course.ended := by
  intro hmem
  obtain ⟨other, hother, hkey⟩ := h.only _ hmem
  rw [effectKeyOf_inj hkey] at hnew
  exact hnew hother

/-- An event that moves nothing. -/
theorem Course.next_idle {course : Course} {e : HandlerEvent} (hc : claimedAt e = none)
    (hs : startedAt e = none) (he : endedAt e = none) (hstop : stopsAt e = false) :
    course.next e = course := by
  cases course
  simp [Course.next, hc, hs, he, hstop]

/-- How a part of the loop that must not move the course ends. -/
def StaysOn {α : Type} (course : Course) (course' : Course) : Except Thrown α → Prop
  | .ok _ => course' = course
  | .error _ => course'.ended = course.ended

section Course

variable {zod : Zod} {channels : Channels} {job : QueueJob} {item : DispatchItem}

/-- A limit that is asked leaves the course where it is. -/
theorem course_enforceRateLimit (course : Course) (inputs : List RateLimitInput) :
    (enforceRateLimit inputs).Follows (courseProtocol zod channels job item) (StaysOn course)
      course := by
  induction inputs with
  | nil => rfl
  | cons input inputs ih =>
    refine ⟨trivial, fun reply _ => ?_⟩
    rcases reply with e | ⟨count⟩ | ⟨count, retryAt⟩
    · exact rfl
    · show Prog.Follows _ _ (course.next _) _
      rw [Course.next_idle rfl rfl rfl rfl]
      exact ih
    · exact rfl

theorem course_limitItem (options : HandlerOptions) (course : Course) :
    (limitItem options item).Follows (courseProtocol zod channels job item) (StaysOn course)
      course := by
  unfold limitItem
  split
  · rfl
  · refine ⟨trivial, fun current _ => ?_⟩
    show Prog.Follows _ _ (course.next _) _
    rw [Course.next_idle rfl rfl rfl rfl]
    exact course_enforceRateLimit course _

/-- A delivery that was not ok ends the loop, and is not recorded as done. -/
theorem deliveryVerdict_cases (result : Except Thrown DeliveryResult) :
    (result = .ok .ok ∧ deliveryVerdict result = (⟨.done, none, none⟩, .ok none)) ∨
      ((deliveryVerdict result).1.outcome ≠ .done ∧
        ((∃ e, (deliveryVerdict result).2 = .error e) ∨
          ∃ returned, (deliveryVerdict result).2 = .ok (some returned) ∧
            ∀ summary, returned ≠ .completed summary)) := by
  rcases result with e | ⟨⟩ | ⟨⟩ | ⟨beforeWrite, reasonCode, status⟩
  · exact Or.inr ⟨by simp [deliveryVerdict], Or.inr ⟨_, rfl, by simp⟩⟩
  · exact Or.inl ⟨rfl, rfl⟩
  · exact Or.inr ⟨by simp [deliveryVerdict], Or.inl ⟨_, rfl⟩⟩
  · cases hunknown : outcomeUnknown beforeWrite status with
    | true =>
      simp only [deliveryVerdict, hunknown, if_true]
      exact Or.inr ⟨by simp, Or.inr ⟨_, rfl, by simp⟩⟩
    | false =>
      simp only [deliveryVerdict, hunknown, Bool.false_eq_true, if_false]
      exact Or.inr ⟨by simp, Or.inl ⟨_, rfl⟩⟩

/-- How the body of the loop ends. -/
def BodyEnds (job : QueueJob) (done : List String) (destination : String) (course : Course) :
    Except Thrown (Option JobHandlerResult) → Prop
  | .ok none => course.Through job (done ++ [destination])
  | .ok (some result) =>
    effectKeyOf job destination ∉ course.ended ∧ ∀ summary, result ≠ .completed summary
  | .error _ => effectKeyOf job destination ∉ course.ended

section Body

variable {course : Course} {done : List String} {destination : String}
  (h : course.Through job done)

include h

/-- A destination that is through comes to those before it. -/
theorem Course.Through.snoc {course' : Course} (hstopped : course'.stopped = false)
    (hclaimed : ∀ d ∈ course'.claimed, d = destination ∨ d ∈ course.claimed)
    (hstarted : ∀ d ∈ course'.started, d = destination ∨ d ∈ course.started)
    (hended : ∀ k, k ∈ course'.ended ↔ k = effectKeyOf job destination ∨ k ∈ course.ended) :
    course'.Through job (done ++ [destination]) where
  stopped := hstopped
  claimed d hd := by
    rcases hclaimed d hd with rfl | hd
    · simp
    · exact List.mem_append_left _ (h.claimed d hd)
  started d hd := by
    rcases hstarted d hd with rfl | hd
    · simp
    · exact List.mem_append_left _ (h.started d hd)
  ended d hd := by
    rw [hended]
    rcases List.mem_append.mp hd with hd | hd
    · exact Or.inr (h.ended d hd)
    · rw [List.mem_singleton.mp hd]
      exact Or.inl rfl
  only k hk := by
    rcases (hended k).mp hk with rfl | hk
    · exact ⟨destination, by simp, rfl⟩
    · obtain ⟨d, hd, hkey⟩ := h.only k hk
      exact ⟨d, List.mem_append_left _ hd, hkey⟩

/-- A claimed destination is delivered to once, and its effect ends. -/
theorem course_deliver (options : HandlerOptions) (hnew : destination ∉ done) :
    (deliver (deliveryTo options job item destination)).Follows
      (courseProtocol zod channels job item) (BodyEnds job done destination)
      { course with claimed := destination :: course.claimed } := by
  refine ⟨⟨h.stopped, List.mem_cons_self, fun hs => hnew (h.started _ hs), rfl⟩, fun _ _ => ?_⟩
  refine ⟨trivial, fun result _ => ⟨trivial, fun reply _ => ?_⟩⟩
  have hnot := h.not_ended hnew
  have hstop := h.stopped
  rcases reply with e | ⟨⟩
  · exact hnot
  · rcases deliveryVerdict_cases result with ⟨rfl, hverdict⟩ | ⟨houtcome, hend⟩
    · refine h.snoc (by simp [courseProtocol, Course.next, stopsAt, hstop]) ?_ ?_ ?_
      · simp [courseProtocol, Course.next, claimedAt]
      · simp [courseProtocol, Course.next, startedAt, deliveryTo]
      · simp [courseProtocol, Course.next, endedAt, deliveryTo, deliveryVerdict]
    · have hended : effectKeyOf job destination ∉ (endedAt ⟨.finishEffect
          (effectKeyOf job destination) (deliveryVerdict result).1, .ok ()⟩).toList ++
            course.ended := by
        simpa [endedAt, houtcome] using hnot
      show Prog.Follows _ _ _ (.ret (deliveryVerdict result).2)
      rcases hend with ⟨e, hend⟩ | ⟨returned, hend, hreturned⟩
      · rw [hend]
        exact hended
      · rw [hend]
        exact ⟨hended, hreturned⟩

/-- A destination is claimed, and then delivered to or skipped. -/
theorem course_deliverTo (options : HandlerOptions) (hnew : destination ∉ done) :
    (deliverTo options job item destination).Follows (courseProtocol zod channels job item)
      (BodyEnds job done destination) course := by
  have hnot := h.not_ended hnew
  have hstop := h.stopped
  refine ⟨⟨hstop, rfl⟩, fun reply _ => ?_⟩
  rcases reply with e | ⟨attempts⟩ | ⟨retryAt⟩ | ⟨⟩ | ⟨⟩
  · exact hnot
  · have hclaimed : (courseProtocol zod channels job item).post course
        (.claimEffect ⟨destination, effectKeyOf job destination, job.jobId⟩)
        (.ok (.claimed attempts)) = { course with claimed := destination :: course.claimed } := by
      simp [courseProtocol, Course.next, claimedAt, startedAt, endedAt, stopsAt]
    rw [hclaimed]
    refine (course_limitItem options _).andThen (fun course' _ hcourse => ?_)
      fun course' e hended => ?_
    · rw [show course' = _ from hcourse]
      exact course_deliver h options hnew
    · show _ ∉ course'.ended
      rw [show course'.ended = _ from hended]
      exact hnot
  · exact ⟨hnot, by simp⟩
  · refine h.snoc (by simp [courseProtocol, Course.next, stopsAt, hstop])
      (fun d hd => Or.inr hd) (fun d hd => Or.inr hd) ?_
    simp [courseProtocol, Course.next, endedAt]
  · exact ⟨hnot, by simp⟩

end Body

/-- How the loop ends: through all destinations, or with one that is not done. -/
def LoopEnds (job : QueueJob) (destinations : List String) (course : Course) :
    Except Thrown (JobHandlerResult ⊕ Fields) → Prop
  | .ok (.inr _) => course.Through job destinations
  | .ok (.inl result) =>
    (∃ destination ∈ destinations, effectKeyOf job destination ∉ course.ended) ∧
      ∀ summary, result ≠ .completed summary
  | .error _ => ∃ destination ∈ destinations, effectKeyOf job destination ∉ course.ended

/-- The destinations are gone through in their order. -/
theorem course_deliverAll (options : HandlerOptions) {course : Course} {done rest : List String}
    (states : Fields) (h : course.Through job done) (hnodup : (done ++ rest).Nodup) :
    (deliverAll options job item rest states).Follows (courseProtocol zod channels job item)
      (LoopEnds job (done ++ rest)) course := by
  induction rest generalizing course done states with
  | nil =>
    rw [List.append_nil]
    exact h
  | cons destination rest ih =>
    have hnew : destination ∉ done := fun hmem =>
      (List.nodup_append.mp hnodup).2.2 destination hmem destination List.mem_cons_self rfl
    have hmem : destination ∈ done ++ destination :: rest := by simp
    refine (course_deliverTo h options hnew).andThen (fun course' result hend => ?_)
      fun course' e hend => ⟨destination, hmem, hend⟩
    cases result with
    | some result => exact ⟨⟨destination, hmem, hend.1⟩, hend.2⟩
    | none =>
      have happend : done ++ destination :: rest = (done ++ [destination]) ++ rest := by simp
      rw [happend] at hnodup ⊢
      exact ih _ hend hnodup

/-! ## The follow-up -/

/-- The article job of a link is one that the schemas accept. -/
theorem toDispatchJobs_followUp {env : Env} {requestedAt createdAt : Instant} {jobId : String}
    {tags : Option (List String)} {title : Option String} {url : String}
    (hitem : DispatchItem.Valid env.zod (.link tags title url))
    (hrequested : env.zod.datetime (toISOString requestedAt) = true)
    (hcreated : env.zod.datetime (toISOString createdAt) = true)
    (huuid : env.zod.uuid jobId = true) :
    let item := followUpItem requestedAt tags title url
    let job : QueueJob :=
      { createdAt := toISOString createdAt, dedupeKey := createItemDedupeKey env.sha256Hex item
        jobId, payload := .dispatchItem item }
    parseQueueJob env.zod job.toJson = some job := by
  refine parseQueueJob_toJson ⟨hcreated, ?_, huuid, ?_⟩
  · intro hempty
    have hlength := congrArg String.length hempty
    simp [createItemDedupeKey, String.length_append] at hlength
  · intro item hsame
    obtain rfl := JobPayload.dispatchItem.inj hsame
    exact ⟨hrequested, hitem.1, hitem.2⟩

/-- Only when all destinations are through comes the archive job. -/
theorem course_followUp {env : Env} {options : HandlerOptions} {course : Course}
    (hitem : item.Valid env.zod)
    (h : course.Through job (matchingDestinations options.channels item)) :
    (followUp env options item).Follows (courseProtocol env.zod options.channels job item)
      (fun course' result => course' = course ∧ result = .ok ()) course := by
  cases item with
  | text | file | article => exact ⟨rfl, rfl⟩
  | link tags title url =>
    show (if _ then _ else _ : HandlerProg Unit).Follows _ _ _
    split
    · next henabled =>
      refine ⟨trivial, fun requestedAt hrequested => ?_⟩
      show Prog.Follows _ _ (course.next _) _
      rw [Course.next_idle rfl rfl rfl rfl]
      refine ⟨trivial, fun createdAt hcreated => ?_⟩
      show Prog.Follows _ _ (course.next _) _
      rw [Course.next_idle rfl rfl rfl rfl]
      refine ⟨trivial, fun jobId huuid => ?_⟩
      show Prog.Follows _ _ (course.next _) _
      rw [Course.next_idle rfl rfl rfl rfl]
      have hparse := toDispatchJobs_followUp hitem hrequested hcreated huuid
      dsimp only at hparse ⊢
      rw [hparse]
      refine ⟨⟨henabled, ⟨tags, title, url, _, _, rfl, rfl, rfl⟩, h.ended⟩, fun reply hreply => ?_⟩
      cases reply with
      | error e => cases hreply
      | ok published => exact ⟨Course.next_idle rfl rfl rfl rfl, rfl⟩
    · exact ⟨rfl, rfl⟩

/-- How a job ends: it is completed where every destination ended done. -/
def JobEnds (channels : Channels) (job : QueueJob) (item : DispatchItem) (course : Course)
    (result : Except Thrown JobHandlerResult) : Prop :=
  (∃ summary, result = .ok (.completed summary)) ↔
    ∀ destination ∈ matchingDestinations channels item,
      effectKeyOf job destination ∈ course.ended

/-- An article is charged before its first destination. -/
theorem course_limitArticle (options : HandlerOptions) (destinations : List String) :
    (limitArticle options item destinations).Follows (courseProtocol zod channels job item)
      (fun course result => course = .start ∧ (result ≠ .ok none → destinations ≠ [])) .start := by
  unfold limitArticle
  split
  · next hlimited =>
    have hnonempty : destinations ≠ [] := by
      rintro rfl
      simp at hlimited
    refine ⟨trivial, fun current _ => ⟨trivial, fun reply _ => ?_⟩⟩
    rcases reply with e | ⟨counts⟩ | ⟨counts, retryAt⟩ <;> exact ⟨rfl, fun _ => hnonempty⟩
  · exact ⟨rfl, fun h => absurd rfl h⟩

/-- A dispatch goes through its destinations, and then on to the archive job. -/
theorem course_dispatchItem {env : Env} {options : HandlerOptions} (hitem : item.Valid env.zod)
    (hnodup : (matchingDestinations options.channels item).Nodup) :
    (dispatchItem env options job item).Follows (courseProtocol env.zod options.channels job item)
      (JobEnds options.channels job item) .start := by
  have hnone : matchingDestinations options.channels item ≠ [] →
      ¬ ∀ destination ∈ matchingDestinations options.channels item,
        effectKeyOf job destination ∈ Course.start.ended := by
    intro hne hall
    obtain ⟨destination, hmem⟩ := List.exists_mem_of_ne_nil _ hne
    exact absurd (hall destination hmem) (by simp [Course.start])
  refine (course_limitArticle options _).andThen (fun course limited hend => ?_)
    fun course e hend => ?_
  · obtain ⟨rfl, hlimited⟩ := hend
    cases limited with
    | some retryAt =>
      exact iff_of_false (by simp) (hnone (hlimited (by simp)))
    | none =>
      have hstart : Course.start.Through job [] := ⟨rfl, by simp [Course.start], by simp [Course.start],
        by simp, by simp [Course.start]⟩
      refine (course_deliverAll options [] hstart hnodup).andThen (fun course result hend => ?_)
        fun course e hend => ?_
      · cases result with
        | inl result =>
          obtain ⟨⟨destination, hmem, hnot⟩, hreturned⟩ := hend
          exact iff_of_false (by simpa using hreturned) fun hall => hnot (hall destination hmem)
        | inr states =>
          refine (course_followUp hitem hend).andThen (fun course' _ hfollow => ?_)
            fun course' e hfollow => ?_
          · obtain ⟨rfl, -⟩ := hfollow
            exact iff_of_true ⟨_, rfl⟩ hend.ended
          · cases hfollow.2
      · obtain ⟨destination, hmem, hnot⟩ := hend
        exact iff_of_false (by simp) fun hall => hnot (hall destination hmem)
  · obtain ⟨rfl, hlimited⟩ := hend
    exact iff_of_false (by simp) (hnone (hlimited (by simp)))

/-! ## Orderly traces -/

/-- The course after a trace, read off its events. -/
theorem course_after (course : Course) (trace : List HandlerEvent) :
    (courseProtocol zod channels job item).after course trace =
      { claimed := (trace.filterMap claimedAt).reverse ++ course.claimed
        started := (trace.filterMap startedAt).reverse ++ course.started
        ended := (trace.filterMap endedAt).reverse ++ course.ended
        stopped := course.stopped || trace.any stopsAt } := by
  induction trace generalizing course with
  | nil => simp
  | cons e trace ih =>
    have hlist : ∀ f : HandlerEvent → Option String,
        List.filterMap f (e :: trace) = (f e).toList ++ trace.filterMap f := by
      intro f
      cases hf : f e <;> simp [hf]
    rw [Protocol.after_cons, ih]
    show Course.mk _ _ _ _ = _
    simp only [courseProtocol, Course.next, hlist, List.any_cons, List.reverse_append,
      List.append_assoc, Bool.or_assoc, Course.mk.injEq]
    have hreverse : ∀ o : Option String, o.toList.reverse = o.toList := by
      intro o
      cases o <;> rfl
    simp [hreverse]

theorem claimedAt_eq_some {e : HandlerEvent} {destination : String}
    (h : claimedAt e = some destination) :
    ∃ input attempts, e = ⟨.claimEffect input, .ok (.claimed attempts)⟩ ∧
      input.destination = destination := by
  unfold claimedAt at h
  split at h
  · next input attempts => exact ⟨input, attempts, rfl, Option.some.inj h⟩
  · cases h

/-- The effects that have ended as done are those whose finish was answered. -/
theorem endedDone_iff {trace : List HandlerEvent} {destination : String} :
    effectKeyOf job destination ∈ trace.filterMap endedAt ↔ EndedDone job trace destination := by
  rw [List.mem_filterMap]
  constructor
  · rintro ⟨e, he, hend⟩
    unfold endedAt at hend
    split at hend
    · next input => exact Or.inl ⟨input, Option.some.inj hend, he⟩
    · next k finish =>
      split at hend
      · next houtcome =>
        rw [Option.some.inj hend] at he
        exact Or.inr ⟨finish, houtcome, he⟩
      · cases hend
    · cases hend
  · rintro (⟨input, hkey, he⟩ | ⟨finish, houtcome, he⟩)
    · exact ⟨_, he, congrArg some hkey⟩
    · exact ⟨_, he, if_pos houtcome⟩

/-- The deliveries to a destination are the starts of them. -/
theorem count_deliversTo (trace : List HandlerEvent) (destination : String) :
    trace.countP (deliversTo destination) = (trace.filterMap startedAt).count destination := by
  induction trace with
  | nil => rfl
  | cons e trace ih =>
    obtain ⟨c, r⟩ := e
    cases c with
    | startDelivery delivery =>
      have hstart : startedAt ⟨.startDelivery delivery, r⟩ = some delivery.destination := rfl
      rw [List.countP_cons, List.filterMap_cons_some hstart, List.count_cons, ih]
      simp [deliversTo]
    | _ =>
      rw [List.countP_cons_of_neg (by simp [deliversTo]), List.filterMap_cons_none rfl, ih]

section Obeys

variable {trace : List HandlerEvent}
  (h : (courseProtocol zod channels job item).Obeys .start trace)

include h

/-- No destination is delivered to twice. -/
theorem started_nodup : (trace.filterMap startedAt).Nodup := by
  induction trace using List.reverseRecOn with
  | nil => exact List.nodup_nil
  | append_singleton trace e ih =>
    obtain ⟨hobeys, hpre⟩ := Protocol.obeys_snoc.mp h
    rw [List.filterMap_append, List.nodup_append]
    obtain ⟨c, r⟩ := e
    cases c with
    | startDelivery delivery =>
      refine ⟨ih hobeys, by simp [startedAt], fun a ha b hb => ?_⟩
      have hnew := hpre.2.2.1
      rw [course_after] at hnew
      obtain rfl : b = delivery.destination := by simpa [startedAt] using hb
      rintro rfl
      exact hnew (by simpa [Course.start] using ha)
    | _ => exact ⟨ih hobeys, List.nodup_nil, fun a _ b hb => absurd hb List.not_mem_nil⟩

/-- **A trace of the loop is orderly.** -/
theorem Orderly.of_obeys {result : Except Thrown JobHandlerResult} (hdestined : Destined channels item)
    (hend : JobEnds channels job item
      ((courseProtocol zod channels job item).after .start trace) result) :
    Orderly channels job item trace result where
  afterClaim := by
    rintro before delivery r rest rfl
    obtain ⟨-, hclaimed, -, hkey⟩ := h.at
    rw [course_after] at hclaimed
    simp only [Course.start, List.append_nil, List.mem_reverse, List.mem_filterMap] at hclaimed
    obtain ⟨e, he, hdestination⟩ := hclaimed
    obtain ⟨input, attempts, rfl, hsame⟩ := claimedAt_eq_some hdestination
    refine ⟨input, attempts, hsame, ?_, he⟩
    -- the claim is in the trace before the delivery, under its key
    obtain ⟨earlier, later, rfl⟩ := List.append_of_mem he
    rw [List.append_assoc] at h
    have hinput := (Protocol.Obeys.at h).2
    rw [hkey, ← hsame]
    exact hinput
  once destination := by
    rw [count_deliversTo]
    exact List.nodup_iff_count_le_one.mp (started_nodup h) destination
  completes := by
    refine hend.trans ?_
    rw [course_after]
    simp only [Course.start, List.append_nil, List.mem_reverse, endedDone_iff]
  stops := by
    rintro before e rest rfl hstops e' he'
    by_contra hgoes
    obtain ⟨r₁, r₂, rfl⟩ := List.append_of_mem he'
    have hassoc : before ++ e :: (r₁ ++ e' :: r₂) = (before ++ e :: r₁) ++ e' :: r₂ := by simp
    rw [hassoc] at h
    have hpre := Protocol.Obeys.at h
    rw [course_after] at hpre
    have hnot : ∀ P : Prop, ¬ ((Course.start.stopped || (before ++ e :: r₁).any stopsAt) = false ∧ P) := by
      rintro P ⟨hfalse, -⟩
      simp [hstops] at hfalse
    -- after the item has stopped, neither a claim nor a delivery is permitted
    obtain ⟨c, r⟩ := e'
    cases c with
    | claimEffect input => exact hnot _ hpre
    | startDelivery delivery => exact hnot _ hpre
    | _ => exact hgoes rfl
  followUp := by
    intro jobs r hmem
    obtain ⟨before, rest, rfl⟩ := List.append_of_mem hmem
    obtain ⟨henabled, hfollow, hended⟩ := Protocol.Obeys.at h
    refine ⟨hfollow, ?_⟩
    obtain ⟨tags, title, url, -, -, rfl, -⟩ := hfollow
    obtain ⟨destination, hdestination⟩ := List.exists_mem_of_ne_nil _ (hdestined henabled)
    refine ⟨destination, hdestination, endedDone_iff.mp ?_⟩
    have hdone := hended destination hdestination
    rw [course_after] at hdone
    simp only [Course.start, List.append_nil, List.mem_reverse] at hdone
    rw [List.filterMap_append]
    exact List.mem_append_left _ hdone

end Obeys

/-! ## Runs that are not orderly -/

/-- The answers of a day on which everything is granted and delivered. -/
def grantAll (current : Instant) (id : String) : (c : HandlerCall) → c.Answer
  | .now => current
  | .randomUuid => id
  | .collect _ => .ok ⟨[], [], false, none⟩
  | .publishJobs jobs => .ok jobs.length
  | .consumeRateLimit _ => .ok (.allowed 1)
  | .consumeRateLimits _ => .ok (.allowed [])
  | .claimEffect _ => .ok (.claimed 1)
  | .startDelivery _ => ()
  | .awaitDelivery _ => .ok .ok
  | .afterCommit | .notify _ | .putState .. | .putLoginSession .. | .finishEffect .. => .ok ()

section GrantAll

variable (current : Instant) (id : String) (job : QueueJob) (item : DispatchItem)

/-- Where everything is granted, all answers are ordinary. -/
theorem grantAll_ordinary {C : Type} {p : HandlerProg C}
    (hcurrent : zod.datetime (toISOString current) = true) (hid : zod.uuid id = true) :
    ∀ e ∈ (p.answered (grantAll current id)).1, Ordinary zod e := by
  induction p with
  | ret a => simp [Prog.answered]
  | call c k ih =>
    intro e he
    rw [Prog.answered] at he
    rcases List.mem_cons.mp he with rfl | he
    · cases c with
      | now => exact hcurrent
      | randomUuid => exact hid
      | publishJobs => rfl
      | _ => trivial
    · exact ih _ e he

theorem grantAll_enforceRateLimit (inputs : List RateLimitInput) :
    ((enforceRateLimit inputs).answered (grantAll current id)).2 = .ok () ∧
      ((enforceRateLimit inputs).answered (grantAll current id)).1.filterMap startedAt = [] := by
  induction inputs with
  | nil => exact ⟨rfl, rfl⟩
  | cons input inputs ih => exact ih

theorem grantAll_limitItem (options : HandlerOptions) :
    ((limitItem options item).answered (grantAll current id)).2 = .ok () ∧
      ((limitItem options item).answered (grantAll current id)).1.filterMap startedAt = [] := by
  unfold limitItem
  split
  · exact ⟨rfl, rfl⟩
  · exact grantAll_enforceRateLimit current id _

/-- Every destination is delivered to. -/
theorem grantAll_deliverTo (options : HandlerOptions) (destination : String) :
    ((deliverTo options job item destination).answered (grantAll current id)).2 = .ok none ∧
      ((deliverTo options job item destination).answered (grantAll current id)).1.filterMap
        startedAt = [destination] := by
  obtain ⟨hok, hstarted⟩ := grantAll_limitItem current id item options
  have hafter := Prog.answered_andThen (grantAll current id)
    (f := fun _ => deliver (deliveryTo options job item destination)) hok
  have hbody : (deliverTo options job item destination).answered (grantAll current id) =
      (⟨.claimEffect ⟨destination, effectKeyOf job destination, job.jobId⟩, .ok (.claimed 1)⟩ ::
        (((limitItem options item).andThen fun _ =>
          deliver (deliveryTo options job item destination)).answered (grantAll current id)).1,
        (((limitItem options item).andThen fun _ =>
          deliver (deliveryTo options job item destination)).answered (grantAll current id)).2) := rfl
  rw [hbody, hafter]
  refine ⟨rfl, ?_⟩
  rw [List.filterMap_cons_none rfl, List.filterMap_append, hstarted]
  rfl

/-- Every destination is delivered to, as often as it is there. -/
theorem grantAll_deliverAll (options : HandlerOptions) (destinations : List String)
    (states : Fields) :
    ((deliverAll options job item destinations states).answered
      (grantAll current id)).1.filterMap startedAt = destinations := by
  induction destinations generalizing states with
  | nil => rfl
  | cons destination destinations ih =>
    obtain ⟨hok, hstarted⟩ := grantAll_deliverTo current id job item options destination
    rw [deliverAll, Prog.answered_andThen _ hok]
    show List.filterMap startedAt (_ ++ _) = _
    rw [List.filterMap_append, hstarted, ih]
    rfl

theorem grantAll_limitArticle (options : HandlerOptions) (destinations : List String) :
    ((limitArticle options item destinations).answered (grantAll current id)).2 = .ok none ∧
      ((limitArticle options item destinations).answered (grantAll current id)).1.filterMap
        startedAt = [] := by
  unfold limitArticle
  split <;> exact ⟨rfl, rfl⟩

/-- The deliveries of the loop are among those of the job. -/
theorem grantAll_dispatchItem (env : Env) (options : HandlerOptions) (destination : String) :
    (matchingDestinations options.channels item).count destination ≤
      ((dispatchItem env options job item).answered (grantAll current id)).1.countP
        (deliversTo destination) := by
  obtain ⟨hok, hstarted⟩ := grantAll_limitArticle current id item options
    (matchingDestinations options.channels item)
  unfold dispatchItem
  dsimp only
  rw [Prog.answered_andThen _ hok, List.countP_append, count_deliversTo, hstarted]
  refine le_trans ?_ (Nat.le_add_left _ _)
  refine le_trans ?_ (List.Sublist.countP_le
    (Prog.prefix_answered _ (deliverAll options job item _ []) _).sublist)
  rw [count_deliversTo, grantAll_deliverAll]

/-- The article job of a link without a destination is published. -/
theorem grantAll_publishes {env : Env} {options : HandlerOptions} {tags : Option (List String)}
    {title : Option String} {url : String}
    (hitem : DispatchItem.Valid env.zod (.link tags title url))
    (hcurrent : env.zod.datetime (toISOString current) = true) (hid : env.zod.uuid id = true)
    (henabled : options.channels.archiveEnabled = true)
    (hnone : matchingDestinations options.channels (.link tags title url) = []) :
    ∃ jobs r, (⟨.publishJobs jobs, r⟩ : HandlerEvent) ∈
      ((dispatchItem env options job (.link tags title url)).answered (grantAll current id)).1 := by
  have hparse := toDispatchJobs_followUp hitem hcurrent hcurrent hid
  have hbody : dispatchItem env options job (.link tags title url) =
      (followUp env options (.link tags title url)).andThen fun _ =>
        .ret (.ok (.completed [("destinations", .obj [])])) := by
    unfold dispatchItem
    dsimp only
    rw [hnone]
    rfl
  rw [hbody]
  have hfollow : ∃ jobs r, (⟨.publishJobs jobs, r⟩ : HandlerEvent) ∈
      ((followUp env options (.link tags title url)).answered (grantAll current id)).1 := by
    simp only [followUp, henabled, if_true]
    dsimp only at hparse
    simp only [Prog.answered, toDispatchJobs, List.any_nil, Bool.false_eq_true, if_false,
      Prog.call_andThen, grantAll, hparse, Prog.ret_ok_andThen]
    exact ⟨_, _, .tail _ (.tail _ (.tail _ (.head _)))⟩
  obtain ⟨jobs, r, hmem⟩ := hfollow
  exact ⟨jobs, r, (Prog.prefix_answered _ _ _).subset hmem⟩

end GrantAll

/--
**A dispatch-item job is handled in order, whatever its claims, limits and deliveries answer, exactly
where a link to be archived has a destination and no destination is there twice.** The archive of a
link does not ask whether the link was delivered anywhere, and an article destination that has the
name of the archive stands beside it.
-/
theorem dispatch_orderly_iff {env : Env} {options : HandlerOptions} {input : Json}
    (hzod : env.zod.Lawful) (hclock : ∃ current, env.zod.datetime (toISOString current) = true)
    (huuid : ∃ id, env.zod.uuid id = true) (hjob : parseQueueJob env.zod input = some job)
    (hpayload : job.payload = .dispatchItem item) :
    (∀ trace result, (handle env options input).Runs trace result →
        (∀ e ∈ trace, Ordinary env.zod e) → Orderly options.channels job item trace result) ↔
      Destined options.channels item ∧ (matchingDestinations options.channels item).Nodup := by
  have hvalid : item.Valid env.zod := (parseQueueJob_valid hzod hjob).item item hpayload
  have hhandle : handle env options input = dispatchItem env options job item := by
    unfold handle
    simp only [hjob, hpayload]
  rw [hhandle]
  constructor
  · intro h
    obtain ⟨current, hcurrent⟩ := hclock
    obtain ⟨id, hid⟩ := huuid
    have horderly := h _ _ (Prog.runs_answered (grantAll current id) _)
      (grantAll_ordinary current id hcurrent hid)
    constructor
    · cases item with
      | link tags title url =>
        intro henabled hnone
        obtain ⟨jobs, r, hpublished⟩ := grantAll_publishes current id job hvalid hcurrent hid henabled hnone
        obtain ⟨-, destination, hmem, -⟩ := horderly.followUp jobs r hpublished
        rw [hnone] at hmem
        cases hmem
      | text | file | article => trivial
    · rw [List.nodup_iff_count_le_one]
      intro destination
      exact (grantAll_dispatchItem current id job item env options destination).trans (horderly.once destination)
  · rintro ⟨hdestined, hnodup⟩ trace result hruns hordinary
    obtain ⟨hobeys, hend⟩ := hruns.obeys (course_dispatchItem hvalid hnodup) hordinary
    exact Orderly.of_obeys hobeys hdestined hend

end Course

namespace TextToFlomo

theorem dispatch_orderly_text :
    (∀ trace result, (handle Sample.env options input).Runs trace result →
        (∀ e ∈ trace, Ordinary Sample.env.zod e) →
        Orderly options.channels (Sample.textJob Sample.firstId) (.text "note" none) trace result) ↔
      Destined options.channels (.text "note" none) ∧
        (matchingDestinations options.channels (.text "note" none)).Nodup :=
  dispatch_orderly_iff Sample.zod_lawful ⟨current, by decide +kernel⟩ ⟨Sample.firstId, by decide⟩
    (parseQueueJob_toJson (Sample.textJob_valid Sample.firstId (by decide))) rfl

end TextToFlomo

/-! ## A link without a destination -/

namespace LinkToNowhere

/-- Articles are archived, and no destination takes links. -/
def options : HandlerOptions where
  channels :=
    { archiveEnabled := true, articleArchive := TextToFlomo.articleArchive, destinations := []
      nodup := by decide }
  hasArchive := true
  hasBrowser := true
  hasNotify := false

def job : QueueJob where
  createdAt := Sample.createdAt
  dedupeKey := "link:1"
  jobId := Sample.firstId
  payload := .dispatchItem (.link none none Sample.articleUrl)

def article : QueueJob where
  createdAt := Sample.createdAt
  dedupeKey := "dispatch:article:" ++ Sample.articleUrl
  jobId := Sample.secondId
  payload := .dispatchItem (.article Sample.createdAt none none Sample.articleUrl)

def trace : List HandlerEvent :=
  [⟨.now, TextToFlomo.current⟩, ⟨.now, TextToFlomo.current⟩, ⟨.randomUuid, Sample.secondId⟩,
    ⟨.publishJobs [article], .ok 1⟩]

/-- The link was delivered nowhere, and its article is published. -/
theorem undelivered_published :
    (handle Sample.env options job.toJson).Runs trace (.ok (.completed [("destinations", .obj [])])) ∧
      (∀ e ∈ trace, Ordinary Sample.env.zod e) ∧
      ¬ Orderly options.channels job (.link none none Sample.articleUrl) trace
        (.ok (.completed [("destinations", .obj [])])) := by
  refine ⟨Prog.runs_of_replay (by decide +kernel), ?_, fun h => ?_⟩
  · intro e he
    simp only [trace, List.mem_cons, List.not_mem_nil, or_false] at he
    rcases he with rfl | rfl | rfl | rfl
    · exact (by decide +kernel : Sample.zod.datetime (toISOString TextToFlomo.current) = true)
    · exact (by decide +kernel : Sample.zod.datetime (toISOString TextToFlomo.current) = true)
    · exact (by decide : Sample.zod.uuid Sample.secondId = true)
    · rfl
  · obtain ⟨-, destination, hmem, -⟩ := h.followUp [article] (.ok 1) (by simp [trace])
    cases hmem

end LinkToNowhere

end InboxServer
