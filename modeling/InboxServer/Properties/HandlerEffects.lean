import InboxServer.Worker.JobHandler
import InboxServer.Properties.Sample

/-!
# What the job handler claims, and what it finishes

* `handle_follows` — the handler holds at most one effect, delivers only what it holds, and finishes
  each delivery with its verdict
* `handler_finishes_iff` — the handler finishes what it has claimed, unless a limit or a notification
  breaks it off in between
-/

namespace InboxServer

open Infra

/-! ## The effect in hand -/

/-- What the handler has in hand, between a claim and its finish. -/
inductive Hand where
  | free
  | claimed (effectKey : String)
  | delivering (effectKey : String)
  | ended (effectKey : String) (result : Except Thrown DeliveryResult)
  /-- A limit or a notification threw, and nothing finishes the effect. -/
  | stuck (effectKey : String)

/-- The effect in hand. -/
def Hand.key? : Hand → Option String
  | .free => none
  | .claimed k | .delivering k | .ended k _ | .stuck k => some k

/-- The calls that need a free hand, and those that go on with what is in hand. -/
def handProtocol : Protocol HandlerCall HandlerCall.Answer Hand where
  pre hand
    | .now => hand = .free ∨ ∃ k, hand = .claimed k
    | .consumeRateLimit _ | .notify _ => ∃ k, hand = .claimed k
    | .startDelivery delivery => hand = .claimed delivery.effectKey
    | .awaitDelivery delivery => hand = .delivering delivery.effectKey
    | .finishEffect k finish => ∃ result, hand = .ended k result ∧ finish = (deliveryVerdict result).1
    | .randomUuid | .collect _ | .afterCommit | .publishJobs _ | .putState .. | .putLoginSession ..
    | .consumeRateLimits _ | .claimEffect _ => hand = .free
  rely _ _ := True
  post
    | _, .claimEffect input, .ok (.claimed _) => .claimed input.effectKey
    | .claimed k, .consumeRateLimit _, .error _ => .stuck k
    | .claimed k, .consumeRateLimit _, .ok (.refused ..) => .stuck k
    | .claimed k, .notify _, .error _ => .stuck k
    | .claimed k, .notify _, .ok () => .ended k (.ok .ok)
    | _, .startDelivery delivery, _ => .delivering delivery.effectKey
    | _, .awaitDelivery delivery, result => .ended delivery.effectKey result
    | _, .finishEffect .., _ => .free
    | hand, _, _ => hand

/-- The handler ends with nothing in hand, or is broken off. -/
def Hand.Over (hand : Hand) : Prop := hand = .free ∨ ∃ k, hand = .stuck k

/-- A part that begins and ends with a free hand, where it does not throw. -/
def EndsFree {α : Type} (hand : Hand) : Except Thrown α → Prop
  | .ok _ => hand = .free
  | .error _ => hand.Over

theorem EndsFree.over {α : Type} {hand : Hand} {result : Except Thrown α}
    (h : EndsFree hand result) : hand.Over := by
  cases result with
  | ok a => exact Or.inl h
  | error e => exact h

/-- The jobs of a collection are made without an effect in hand. -/
theorem follows_toDispatchJobs (env : Env) (items : List DispatchItem) (unique : Entries QueueJob) :
    (toDispatchJobs env items unique).Follows handProtocol EndsFree .free := by
  induction items generalizing unique with
  | nil => rfl
  | cons item items ih =>
    unfold toDispatchJobs
    dsimp only
    split
    · exact ih unique
    · refine ⟨Or.inl rfl, fun createdAt _ => ⟨rfl, fun jobId _ => ?_⟩⟩
      dsimp only
      split
      · exact Or.inl rfl
      · exact ih _

/-- A limit is asked with the effect in hand, which stays claimed if it is granted. -/
theorem follows_enforceRateLimit (k : String) (inputs : List RateLimitInput) :
    (enforceRateLimit inputs).Follows handProtocol
      (fun hand result => if result.isOk then hand = .claimed k else hand = .stuck k)
      (.claimed k) := by
  induction inputs with
  | nil => rfl
  | cons input inputs ih =>
    refine ⟨⟨k, rfl⟩, fun reply _ => ?_⟩
    rcases reply with e | ⟨count⟩ | ⟨count, retryAt⟩
    · rfl
    · exact ih
    · rfl

/-- A delivery is started, awaited and recorded. -/
theorem follows_deliver (delivery : Delivery) :
    (deliver delivery).Follows handProtocol EndsFree (.claimed delivery.effectKey) := by
  refine ⟨rfl, fun _ _ => ⟨rfl, fun result _ => ⟨⟨result, rfl, rfl⟩, fun reply _ => ?_⟩⟩⟩
  rcases reply with e | ⟨⟩
  · exact Or.inl rfl
  · show EndsFree Hand.free (deliveryVerdict result).2
    cases (deliveryVerdict result).2 with
    | ok a => rfl
    | error e => exact Or.inl rfl

theorem follows_limitItem (options : HandlerOptions) (item : DispatchItem) (k : String) :
    (limitItem options item).Follows handProtocol
      (fun hand result => if result.isOk then hand = .claimed k else hand = .stuck k)
      (.claimed k) := by
  unfold limitItem
  split
  · rfl
  · exact ⟨Or.inr ⟨k, rfl⟩, fun current _ => follows_enforceRateLimit k _⟩

/-- An effect is claimed, delivered and finished, or not claimed. -/
theorem follows_deliverTo (options : HandlerOptions) (job : QueueJob) (item : DispatchItem)
    (destination : String) :
    (deliverTo options job item destination).Follows handProtocol EndsFree .free := by
  refine ⟨rfl, fun reply _ => ?_⟩
  rcases reply with e | ⟨attempts⟩ | ⟨retryAt⟩ | ⟨⟩ | ⟨⟩
  · exact Or.inl rfl
  · refine (follows_limitItem options item _).andThen (fun hand _ hhand => ?_) fun hand _ hhand => ?_
    · rw [show hand = .claimed _ from hhand]
      exact follows_deliver (deliveryTo options job item destination)
    · exact Or.inr ⟨_, hhand⟩
  · rfl
  · rfl
  · rfl

theorem follows_deliverAll (options : HandlerOptions) (job : QueueJob) (item : DispatchItem)
    (destinations : List String) (states : Fields) :
    (deliverAll options job item destinations states).Follows handProtocol EndsFree .free := by
  induction destinations generalizing states with
  | nil => rfl
  | cons destination destinations ih =>
    refine (follows_deliverTo options job item destination).andThen (fun hand result hhand => ?_)
      fun hand e hhand => hhand
    obtain rfl : hand = .free := hhand
    cases result with
    | some result => rfl
    | none => exact ih _

/-- The archive job is published with nothing in hand. -/
theorem follows_followUp (env : Env) (options : HandlerOptions) (item : DispatchItem) :
    (followUp env options item).Follows handProtocol EndsFree .free := by
  cases item with
  | text | file | article => rfl
  | link tags title url =>
    show (if _ then _ else _ : HandlerProg Unit).Follows _ _ _
    split
    · refine ⟨Or.inl rfl, fun requestedAt _ => ?_⟩
      refine (follows_toDispatchJobs env _ []).andThen (fun hand jobs hhand => ?_)
        fun hand e hhand => hhand
      obtain rfl : hand = .free := hhand
      refine ⟨rfl, fun reply _ => ?_⟩
      cases reply with
      | error e => exact Or.inl rfl
      | ok published => rfl
    · rfl

/-- An article is charged with nothing in hand. -/
theorem follows_limitArticle (options : HandlerOptions) (item : DispatchItem)
    (destinations : List String) :
    (limitArticle options item destinations).Follows handProtocol EndsFree .free := by
  unfold limitArticle
  split
  · refine ⟨Or.inl rfl, fun current _ => ⟨rfl, fun reply _ => ?_⟩⟩
    rcases reply with e | ⟨counts⟩ | ⟨counts, retryAt⟩
    · exact Or.inl rfl
    · rfl
    · rfl
  · rfl

/-- A dispatch begins and ends with nothing in hand. -/
theorem follows_dispatchItem (env : Env) (options : HandlerOptions) (job : QueueJob)
    (item : DispatchItem) :
    (dispatchItem env options job item).Follows handProtocol EndsFree .free := by
  refine (follows_limitArticle options item _).andThen (fun hand limited hhand => ?_)
    fun hand e hhand => hhand
  obtain rfl : hand = .free := hhand
  cases limited with
  | some retryAt => rfl
  | none =>
    refine (follows_deliverAll options job item _ []).andThen (fun hand result hhand => ?_)
      fun hand e hhand => hhand
    obtain rfl : hand = .free := hhand
    cases result with
    | inl result => rfl
    | inr states =>
      refine (follows_followUp env options item).andThen (fun hand _ hhand => ?_)
        fun hand e hhand => hhand
      exact hhand

/-- A notification is claimed, sent and recorded. -/
theorem follows_notifyCollection (options : HandlerOptions) (job : QueueJob) (source : SourceName)
    (collected published : Nat) :
    (notifyCollection options job source collected published).Follows handProtocol EndsFree
      .free := by
  unfold notifyCollection
  split
  · rfl
  · refine ⟨rfl, fun reply _ => ?_⟩
    rcases reply with e | ⟨attempts⟩ | ⟨retryAt⟩ | ⟨⟩ | ⟨⟩
    · exact Or.inl rfl
    · refine ⟨⟨_, rfl⟩, fun notified _ => ?_⟩
      rcases notified with e | ⟨⟩
      · exact Or.inr ⟨_, rfl⟩
      · refine ⟨⟨_, rfl, rfl⟩, fun finished _ => ?_⟩
        rcases finished with e | ⟨⟩
        · exact Or.inl rfl
        · rfl
    · rfl
    · rfl
    · rfl

/-- States are stored with nothing in hand. -/
theorem follows_putStates (updates : Entries Json) :
    (putStates updates).Follows handProtocol EndsFree .free := by
  induction updates with
  | nil => rfl
  | cons update updates ih =>
    refine ⟨rfl, fun reply _ => ?_⟩
    rcases reply with e | ⟨⟩
    · exact Or.inl rfl
    · exact ih

/-- One call that leaves the hand free, whose answer is the result. -/
theorem endsFree_of_free {α : Type} (result : Except Thrown α) : EndsFree Hand.free result := by
  cases result with
  | ok a => rfl
  | error e => exact Or.inl rfl

/-- A collection is published before its states are stored. -/
theorem follows_publishCollection (options : HandlerOptions) (job : QueueJob) (source : SourceName)
    (shadow : Bool) (result : CollectionResult) (jobs : List QueueJob) :
    (publishCollection options job source shadow result jobs).Follows handProtocol EndsFree
      .free := by
  unfold publishCollection
  split
  · exact ⟨Or.inl rfl, fun observedAt _ => ⟨rfl, fun reply _ => endsFree_of_free reply⟩⟩
  · refine ⟨rfl, fun reply _ => ?_⟩
    cases reply with
    | error e => exact Or.inl rfl
    | ok published =>
      refine (follows_putStates _).andThen (fun hand _ hhand => ?_) fun hand e hhand => hhand
      obtain rfl : hand = .free := hhand
      have hcommit : (commitCollection result).Follows handProtocol EndsFree .free := by
        unfold commitCollection
        split
        · exact ⟨rfl, fun reply _ => endsFree_of_free reply⟩
        · rfl
      refine hcommit.andThen (fun hand _ hhand => ?_) fun hand e hhand => hhand
      obtain rfl : hand = .free := hhand
      exact follows_notifyCollection options job source _ _

/-- A collection begins and ends with nothing in hand. -/
theorem follows_collectSource (env : Env) (options : HandlerOptions) (job : QueueJob)
    (shadow : Bool) (source : SourceName) :
    (collectSource env options job shadow source).Follows handProtocol EndsFree .free := by
  unfold collectSource
  split
  · exact Or.inl rfl
  · refine ⟨rfl, fun reply _ => ?_⟩
    cases reply with
    | error e => exact Or.inl rfl
    | ok result =>
      refine (follows_toDispatchJobs env _ []).andThen (fun hand jobs hhand => ?_)
        fun hand e hhand => hhand
      obtain rfl : hand = .free := hhand
      refine (follows_publishCollection options job source shadow result jobs).andThen
        (fun hand _ hhand => ?_) fun hand e hhand => hhand
      obtain rfl : hand = .free := hhand
      have hsession : (putSession result.loginSession).Follows handProtocol EndsFree .free := by
        cases result.loginSession with
        | none => rfl
        | some session => exact ⟨rfl, fun reply _ => endsFree_of_free reply⟩
      exact hsession.andThen (fun hand _ hhand => hhand) fun hand e hhand => hhand

/-- **The handler keeps to the protocol of the hand.** -/
theorem handle_follows (env : Env) (options : HandlerOptions) (input : Json) :
    (handle env options input).Follows handProtocol (fun hand _ => hand.Over) .free := by
  unfold handle
  split
  · exact Or.inl rfl
  · split
    · exact (follows_collectSource env options _ _ _).mono fun hand result h => h.over
    · exact (follows_dispatchItem env options _ _).mono fun hand result h => h.over

/-! ## Traces -/

/-- The handler has received `claimed` for the effect. -/
def received (effectKey : String) : HandlerEvent → Bool
  | ⟨.claimEffect input, .ok (.claimed _)⟩ => input.effectKey = effectKey
  | _ => false

/-- The effect has been passed to `finishEffect`. -/
def finishes (effectKey : String) : HandlerEvent → Bool
  | ⟨.finishEffect k _, _⟩ => k = effectKey
  | _ => false

/-- A call of the effect store does not throw. -/
def EffectCallSucceeds : HandlerEvent → Prop
  | ⟨.claimEffect _, reply⟩ => reply.isOk = true
  | ⟨.finishEffect .., reply⟩ => reply.isOk = true
  | _ => True

/-- The effect is in processing after the trace, by its last claim or finish. -/
def leftProcessing (effectKey : String) (trace : List HandlerEvent) : Bool :=
  trace.foldl (fun processing e =>
    if received effectKey e then true else if finishes effectKey e then false else processing) false

/-- Every effect that the handler has claimed is finished once, and is not left in processing. -/
def FinishesClaimed (trace : List HandlerEvent) : Prop :=
  ∀ k, (∃ e ∈ trace, received k e = true) →
    trace.countP (finishes k) = 1 ∧ leftProcessing k trace = false

/-- A limit is refused or throws, or a notification throws. -/
def breaksOff : HandlerEvent → Bool
  | ⟨.consumeRateLimit _, .ok (.allowed _)⟩ => false
  | ⟨.consumeRateLimit _, _⟩ => true
  | ⟨.notify _, .error _⟩ => true
  | _ => false

/-- No limit and no notification breaks off, and no effect is handed out twice. -/
structure Uninterrupted (trace : List HandlerEvent) : Prop where
  unbroken : ∀ e ∈ trace, breaksOff e = false
  once : ∀ k, trace.countP (received k) ≤ 1

section Step

variable {hand : Hand} {e : HandlerEvent} (hpre : handProtocol.pre hand e.1)

include hpre

/-- A call takes an effect in hand, lets go of the one in hand, or moves none. -/
theorem hand_moves :
    (∃ k', (∀ k, received k e = decide (k' = k)) ∧ (∀ k, finishes k e = false) ∧
      hand.key? = none ∧ (handProtocol.post hand e.1 e.2).key? = some k') ∨
    (∃ k', (∀ k, received k e = false) ∧ (∀ k, finishes k e = decide (k' = k)) ∧
      hand.key? = some k' ∧ (handProtocol.post hand e.1 e.2).key? = none) ∨
    ((∀ k, received k e = false) ∧ (∀ k, finishes k e = false) ∧
      (handProtocol.post hand e.1 e.2).key? = hand.key?) := by
  obtain ⟨c, r⟩ := e
  cases c with
  | claimEffect input =>
    obtain rfl : hand = .free := hpre
    rcases r with e | ⟨attempts⟩ | ⟨retryAt⟩ | ⟨⟩ | ⟨⟩
    · exact Or.inr (Or.inr ⟨fun _ => rfl, fun _ => rfl, rfl⟩)
    · exact Or.inl ⟨input.effectKey, fun _ => rfl, fun _ => rfl, rfl, rfl⟩
    · exact Or.inr (Or.inr ⟨fun _ => rfl, fun _ => rfl, rfl⟩)
    · exact Or.inr (Or.inr ⟨fun _ => rfl, fun _ => rfl, rfl⟩)
    · exact Or.inr (Or.inr ⟨fun _ => rfl, fun _ => rfl, rfl⟩)
  | finishEffect k finish =>
    obtain ⟨result, rfl, -⟩ := hpre
    exact Or.inr (Or.inl ⟨k, fun _ => rfl, fun _ => rfl, rfl, rfl⟩)
  | consumeRateLimit input =>
    obtain ⟨k, rfl⟩ := hpre
    rcases r with e | ⟨count⟩ | ⟨count, retryAt⟩ <;>
      exact Or.inr (Or.inr ⟨fun _ => rfl, fun _ => rfl, rfl⟩)
  | notify summary =>
    obtain ⟨k, rfl⟩ := hpre
    rcases r with e | ⟨⟩ <;> exact Or.inr (Or.inr ⟨fun _ => rfl, fun _ => rfl, rfl⟩)
  | startDelivery delivery =>
    obtain rfl : hand = .claimed delivery.effectKey := hpre
    exact Or.inr (Or.inr ⟨fun _ => rfl, fun _ => rfl, rfl⟩)
  | awaitDelivery delivery =>
    obtain rfl : hand = .delivering delivery.effectKey := hpre
    exact Or.inr (Or.inr ⟨fun _ => rfl, fun _ => rfl, rfl⟩)
  | now =>
    rcases hpre with rfl | ⟨k, rfl⟩ <;>
      exact Or.inr (Or.inr ⟨fun _ => rfl, fun _ => rfl, rfl⟩)
  | randomUuid | collect | afterCommit | publishJobs | putState | putLoginSession
  | consumeRateLimits =>
    obtain rfl : hand = .free := hpre
    exact Or.inr (Or.inr ⟨fun _ => rfl, fun _ => rfl, rfl⟩)

/-- A call is made with a hand that is not stuck, and sticks exactly where it breaks off. -/
theorem stuck_step :
    (¬ ∃ k, hand = .stuck k) ∧
      ((∃ k, handProtocol.post hand e.1 e.2 = .stuck k) ↔ breaksOff e = true) := by
  obtain ⟨c, r⟩ := e
  cases c with
  | claimEffect input =>
    obtain rfl : hand = .free := hpre
    rcases r with e | ⟨attempts⟩ | ⟨retryAt⟩ | ⟨⟩ | ⟨⟩ <;>
      simp [handProtocol, breaksOff]
  | finishEffect k finish =>
    obtain ⟨result, rfl, -⟩ := hpre
    simp [handProtocol, breaksOff]
  | consumeRateLimit input =>
    obtain ⟨k, rfl⟩ := hpre
    rcases r with e | ⟨count⟩ | ⟨count, retryAt⟩ <;> simp [handProtocol, breaksOff]
  | notify summary =>
    obtain ⟨k, rfl⟩ := hpre
    rcases r with e | ⟨⟩ <;> simp [handProtocol, breaksOff]
  | startDelivery delivery =>
    obtain rfl : hand = .claimed delivery.effectKey := hpre
    simp [handProtocol, breaksOff]
  | awaitDelivery delivery =>
    obtain rfl : hand = .delivering delivery.effectKey := hpre
    simp [handProtocol, breaksOff]
  | now =>
    rcases hpre with rfl | ⟨k, rfl⟩ <;> simp [handProtocol, breaksOff]
  | randomUuid | collect | afterCommit | publishJobs | putState | putLoginSession
  | consumeRateLimits =>
    obtain rfl : hand = .free := hpre
    simp [handProtocol, breaksOff]

end Step

/-- The effect in hand is the one that is claimed once more than it is finished. -/
theorem hand_counts {trace : List HandlerEvent} (h : handProtocol.Obeys .free trace) (k : String) :
    trace.countP (received k) = trace.countP (finishes k) +
        (if (handProtocol.after .free trace).key? = some k then 1 else 0) ∧
      leftProcessing k trace = decide ((handProtocol.after .free trace).key? = some k) := by
  induction trace using List.reverseRecOn with
  | nil => exact ⟨rfl, rfl⟩
  | append_singleton trace e ih =>
    obtain ⟨hobeys, hpre⟩ := Protocol.obeys_snoc.mp h
    obtain ⟨hcount, hleft⟩ := ih hobeys
    rw [Protocol.after_snoc, List.countP_append, List.countP_append, hcount]
    unfold leftProcessing at hleft ⊢
    rw [List.foldl_append, hleft]
    rcases hand_moves hpre with ⟨k', hr, hf, hfree, hkey⟩ | ⟨k', hr, hf, hkey, hfree⟩ | ⟨hr, hf, hsame⟩
    · by_cases hk : k' = k <;> simp [hr, hf, hfree, hkey, hk]
    · by_cases hk : k' = k <;> simp [hr, hf, hfree, hkey, hk]
    · simp [hr, hf, hsame]

/-- The hand is stuck at the end exactly of a trace that breaks off. -/
theorem stuck_iff {trace : List HandlerEvent} (h : handProtocol.Obeys .free trace) :
    (∃ k, handProtocol.after .free trace = .stuck k) ↔ ∃ e ∈ trace, breaksOff e = true := by
  induction trace using List.reverseRecOn with
  | nil => simp
  | append_singleton trace e ih =>
    obtain ⟨hobeys, hpre⟩ := Protocol.obeys_snoc.mp h
    obtain ⟨hnot, hstuck⟩ := stuck_step hpre
    rw [Protocol.after_snoc, hstuck]
    constructor
    · intro he
      exact ⟨e, by simp, he⟩
    · rintro ⟨e', hmem, he'⟩
      rcases List.mem_append.mp hmem with hmem | hmem
      · exact absurd ((ih hobeys).mpr ⟨e', hmem, he'⟩) hnot
      · rw [← List.mem_singleton.mp hmem]
        exact he'

/-- What a delivery comes to is recorded next, with its verdict. -/
theorem recorded_next {env : Env} {options : HandlerOptions} {input : Json}
    {before rest : List HandlerEvent} {delivery : Delivery} {ended : Except Thrown DeliveryResult}
    {result : Except Thrown JobHandlerResult}
    (h : (handle env options input).Runs (before ++ ⟨.awaitDelivery delivery, ended⟩ :: rest)
      result) :
    ∃ reply rest', rest =
      ⟨.finishEffect delivery.effectKey (deliveryVerdict ended).1, reply⟩ :: rest' := by
  obtain ⟨hobeys, hover⟩ := h.obeys (handle_follows env options input) fun _ _ => trivial
  rw [Protocol.after_append, Protocol.after_cons] at hover
  have hrest := (Protocol.obeys_append.mp hobeys).2.2
  cases rest with
  | nil => rcases hover with hfree | ⟨k, hstuck⟩ <;> simp [handProtocol] at *
  | cons e rest =>
    obtain ⟨c, reply⟩ := e
    have hpre : handProtocol.pre (.ended delivery.effectKey ended) c := hrest.1
    cases c with
    | finishEffect k finish =>
      obtain ⟨result, hsame, rfl⟩ := hpre
      obtain ⟨rfl, rfl⟩ := Hand.ended.inj hsame
      exact ⟨reply, rest, rfl⟩
    | now => rcases hpre with hfree | ⟨k, hclaimed⟩ <;> simp at *
    | consumeRateLimit | notify =>
      obtain ⟨k, hclaimed⟩ := hpre
      cases hclaimed
    | randomUuid | collect | afterCommit | publishJobs | putState | putLoginSession
    | consumeRateLimits | claimEffect | startDelivery | awaitDelivery => cases hpre

/--
**The handler finishes what it claims, exactly in the runs that nothing interrupts.** A limit of an
item that is not an article is consumed after the claim, and a notification is sent after its
claim; where either throws, nothing finishes the effect.
-/
theorem handler_finishes_iff {env : Env} {options : HandlerOptions} {input : Json}
    {trace : List HandlerEvent} {result : Except Thrown JobHandlerResult}
    (h : (handle env options input).Runs trace result) :
    FinishesClaimed trace ↔ Uninterrupted trace := by
  obtain ⟨hobeys, hover⟩ := h.obeys (handle_follows env options input) fun _ _ => trivial
  have hreceived : ∀ k, (∃ e ∈ trace, received k e = true) ↔ 0 < trace.countP (received k) :=
    fun k => by rw [List.countP_pos_iff]
  constructor
  · intro hfinishes
    constructor
    · by_contra hbroken
      push Not at hbroken
      obtain ⟨e, he, hbreaks⟩ := hbroken
      obtain ⟨k, hstuck⟩ := (stuck_iff hobeys).mpr ⟨e, he, by simpa using hbreaks⟩
      obtain ⟨hcount, hleft⟩ := hand_counts hobeys k
      rw [hstuck] at hcount hleft
      have hdone := hfinishes k ((hreceived k).mpr (by rw [hcount]; simp [Hand.key?]))
      rw [hdone.2] at hleft
      simp [Hand.key?] at hleft
    · intro k
      by_contra hmany
      obtain ⟨hcount, hleft⟩ := hand_counts hobeys k
      obtain ⟨hone, hnot⟩ := hfinishes k ((hreceived k).mpr (by omega))
      rw [hnot] at hleft
      rw [if_neg (by simpa using hleft.symm)] at hcount
      omega
  · rintro ⟨hunbroken, honce⟩ k hk
    have hfree : handProtocol.after .free trace = .free := by
      refine hover.resolve_right fun hstuck => ?_
      obtain ⟨e, he, hbreaks⟩ := (stuck_iff hobeys).mp hstuck
      rw [hunbroken e he] at hbreaks
      cases hbreaks
    obtain ⟨hcount, hleft⟩ := hand_counts hobeys k
    rw [hfree] at hcount hleft
    have hpos := (hreceived k).mp hk
    have hle := honce k
    simp only [Hand.key?, reduceCtorEq, if_false, add_zero] at hcount
    exact ⟨by omega, by rw [hleft]; rfl⟩

/-! ## A refused limit -/

namespace TextToFlomo

theorem windowCount_pos : 0 < 60 := by decide

theorem windowSeconds_pos : 0 < 3600 := by decide

def articleArchive : ArticleArchive where
  dailyLimit := 10000
  rateWindowCount := 60
  rateWindowSeconds := 3600
  dailyLimit_pos := by decide
  rateWindowCount_pos := windowCount_pos
  rateWindowSeconds_pos := windowSeconds_pos

def options : HandlerOptions where
  channels :=
    { archiveEnabled := false, articleArchive
      destinations := [("flomo", { enabled := true, itemKind := .text })]
      nodup := by decide }
  hasArchive := false
  hasBrowser := false
  hasNotify := false

def input : Json := (Sample.textJob Sample.firstId).toJson

/-- 5 January 2026, 16:00 in Shanghai. -/
def current : Instant := 1767600000000

def claim : HandlerEvent :=
  ⟨.claimEffect ⟨"flomo", "text:1:flomo", Sample.firstId⟩, .ok (.claimed 1)⟩

def daily (reply : Postgres.RateLimitReply) : HandlerEvent :=
  ⟨.consumeRateLimit ⟨"2026-01-05", 96, "text:daily", 86400⟩, .ok reply⟩

def window : HandlerEvent :=
  ⟨.consumeRateLimit ⟨"81833", 25, "text:window", 21600⟩, .ok (.allowed 1)⟩

/-- The ninety-seventh text of a day is claimed, and then its limit is refused. -/
def refusedRun : List HandlerEvent :=
  [claim, ⟨.now, current⟩, daily (.refused 96 1767628800000)]

def delivery : Delivery := ⟨"flomo", .text "note" none, none, "text:1:flomo"⟩

def deliveredRun : List HandlerEvent :=
  [claim, ⟨.now, current⟩, daily (.allowed 1), window, ⟨.startDelivery delivery, ()⟩,
    ⟨.awaitDelivery delivery, .ok .ok⟩,
    ⟨.finishEffect "text:1:flomo" ⟨.done, none, none⟩, .ok ()⟩]

theorem deliveredRun_runs : (handle Sample.env options input).Runs deliveredRun
    (.ok (.completed [("destinations", .obj [("flomo", .str "done")])])) :=
  Prog.runs_of_replay (by decide +kernel)

theorem handler_finishes_delivered : FinishesClaimed deliveredRun ↔ Uninterrupted deliveredRun :=
  handler_finishes_iff deliveredRun_runs

/-- The effect of the refused text stays in processing, though every call of the store succeeds. -/
theorem refused_unfinished :
    (handle Sample.env options input).Runs refusedRun
        (.error (.error true "429 text:daily rate limit unavailable")) ∧
      (∀ e ∈ refusedRun, EffectCallSucceeds e) ∧ ¬ FinishesClaimed refusedRun := by
  refine ⟨Prog.runs_of_replay (by decide +kernel), ?_, fun h => ?_⟩
  · simp [refusedRun, claim, daily, EffectCallSucceeds, Except.isOk, Except.toBool]
  · have hleft := (h "text:1:flomo" ⟨claim, by simp [refusedRun], by decide⟩).2
    exact absurd hleft (by decide)

end TextToFlomo

end InboxServer
