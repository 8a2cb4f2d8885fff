import InboxServer.Worker.Webhook

/-!
# The webhook drains the queue one request at a time

* `webhookInv_run` — the flag is set exactly while a request is draining, and at most one is
* `webhookSettles_spec` — what a request does when its batch ends
* `webhook_drains` — what the record of any run says, and what comes next
-/

namespace InboxServer

open Infra

/-! ## The token -/

/-- Where digests do not collide, a request is authorized by the token alone. -/
theorem hasValidBearerToken_iff {options : WebhookOptions} (h : Function.Injective options.sha256)
    (authorization : Option String) :
    hasValidBearerToken options authorization = true ↔
      authorization = some ("Bearer " ++ options.token) := by
  unfold hasValidBearerToken
  cases authorization with
  | none => simp
  | some text =>
    simp only [Bool.and_eq_true, List.isPrefixOf_iff_prefix, decide_eq_true_eq, h.eq_iff,
      Option.some.injEq]
    constructor
    · rintro ⟨⟨rest, hrest⟩, htoken⟩
      have hdrop : List.drop "Bearer ".length ("Bearer ".toList ++ rest) = rest := by
        rw [← String.length_toList, List.drop_left]
      rw [← htoken, ← String.toList_inj, String.toList_append, ← hrest, hdrop]
      exact congrArg _ String.toList_ofList.symm
    · rintro rfl
      rw [String.toList_append]
      exact ⟨List.prefix_append _ _, String.ofList_toList⟩

/-! ## Records -/

abbrev WebhookRecord := List (ℕ × WebhookEvent)

/-- How far a request is with its calls of `processBatch`. -/
inductive BatchState where
  | none
  | inFlight
  | ended (outcome : Option Nat)
  deriving DecidableEq

def BatchState.next (i : ℕ) (state : BatchState) : ℕ × WebhookEvent → BatchState
  | (j, .started _) => if j = i then .inFlight else state
  | (j, .ended outcome) => if j = i then .ended outcome else state
  | (_, .arrived _) | (_, .read _) | (_, .answered _) => state

/-- The last call of `processBatch` that the request has made. -/
def batchState (i : ℕ) (record : WebhookRecord) : BatchState :=
  record.foldl (BatchState.next i) .none

@[simp] theorem batchState_nil (i : ℕ) : batchState i [] = .none := rfl

@[simp] theorem batchState_append (i : ℕ) (record chunk : WebhookRecord) :
    batchState i (record ++ chunk) = chunk.foldl (BatchState.next i) (batchState i record) := by
  simp [batchState]

theorem BatchState.next_of_ne {i : ℕ} {state : BatchState} {e : ℕ × WebhookEvent} (h : e.1 ≠ i) :
    state.next i e = state := by
  obtain ⟨j, event⟩ := e
  cases event <;> simp_all [BatchState.next]

/-- What other requests do is nothing to the batches of this one. -/
theorem batchState_append_of_ne {i : ℕ} {record chunk : WebhookRecord}
    (h : ∀ e ∈ chunk, e.1 ≠ i) : batchState i (record ++ chunk) = batchState i record := by
  induction chunk using List.reverseRecOn with
  | nil => rw [List.append_nil]
  | append_singleton chunk e ih =>
    rw [← List.append_assoc, batchState_append, ih fun e he => h e (List.mem_append_left _ he)]
    exact BatchState.next_of_ne (h e (by simp))

theorem batchState_of_absent {i : ℕ} {record : WebhookRecord} (h : ∀ e ∈ record, e.1 ≠ i) :
    batchState i record = .none := by
  have hnone : batchState i ([] ++ record) = .none := batchState_append_of_ne h
  rwa [List.nil_append] at hnone

/-- The request has started a batch, and is not answered yet. -/
def Draining (i : ℕ) (record : WebhookRecord) : Prop :=
  (∃ elapsed, (i, .started elapsed) ∈ record) ∧ ∀ response, (i, .answered response) ∉ record

/-- The request may start a batch: it came with `POST` and the token, while none was draining. -/
def Welcome (options : WebhookOptions) (i : ℕ) (record : WebhookRecord) : Prop :=
  ∃ before input after, record = before ++ (i, .arrived input) :: after ∧
    input.method = some "POST" ∧ hasValidBearerToken options input.authorization = true ∧
    ∀ j, ¬ Draining j before

theorem Welcome.append {options : WebhookOptions} {i : ℕ} {record : WebhookRecord}
    (h : Welcome options i record) (chunk : WebhookRecord) : Welcome options i (record ++ chunk) := by
  obtain ⟨before, input, after, rfl, hinput⟩ := h
  exact ⟨before, input, after ++ chunk, by simp, hinput⟩

/-- The request has got past its method and its token. -/
def Begun (i : ℕ) (record : WebhookRecord) : Prop :=
  (∃ availability, (i, .read availability) ∈ record) ∨ ∃ elapsed, (i, .started elapsed) ∈ record

/-- What may come next in a record. -/
def Permitted (options : WebhookOptions) (before : WebhookRecord) : ℕ × WebhookEvent → Prop
  | (i, .arrived _) => ∀ e ∈ before, e.1 ≠ i
  | (i, .started elapsed) => elapsed < webhookDrainBudgetMs ∧
    (∀ availability, (i, .read availability) ∈ before → availability = .ready) ∧
    (∀ j, batchState j before ≠ .inFlight) ∧ Welcome options i before
  | (i, .answered response) =>
    (response.status = 200 ↔ batchState i before = .ended (some 0)) ∧
    (Begun i before → response.status = 200 ∨ response.status = 503)
  | (_, .read _) | (_, .ended _) => True

/-- Everything in the record was permitted when it came. -/
def Lawful (options : WebhookOptions) (record : WebhookRecord) : Prop :=
  ∀ before e after, record = before ++ e :: after → Permitted options before e

theorem lawful_nil (options : WebhookOptions) : Lawful options [] := by
  intro before e after h
  simp at h

theorem Lawful.snoc {options : WebhookOptions} {record : WebhookRecord} {e : ℕ × WebhookEvent}
    (h : Lawful options record) (he : Permitted options record e) :
    Lawful options (record ++ [e]) := by
  intro before e' after hsplit
  rcases List.eq_nil_or_concat after with rfl | ⟨after, last, rfl⟩
  · obtain ⟨rfl, hlast⟩ := List.append_inj' hsplit rfl
    rw [← List.singleton_inj.mp hlast]
    exact he
  · rw [List.concat_eq_append, ← List.cons_append, ← List.append_assoc] at hsplit
    exact h before e' after (List.append_inj' hsplit rfl).1

/-! ## The invariant -/

/-- What the record says of a request in a phase. -/
def PhaseHolds (options : WebhookOptions) (i : ℕ) (record : WebhookRecord) : WebhookPhase → Prop
  | .absent => ∀ e ∈ record, e.1 ≠ i
  | .draining _ => batchState i record = .inFlight ∧ Draining i record ∧ Welcome options i record ∧
    ∀ availability, (i, .read availability) ∈ record → availability = .ready
  | .answered => batchState i record ≠ .inFlight ∧ ∃ response, (i, .answered response) ∈ record

structure WebhookInv (options : WebhookOptions) (server : WebhookServer) : Prop where
  lawful : Lawful options server.record
  phase : ∀ i, PhaseHolds options i server.record (server.phases i)
  busy : server.busy = true ↔ ∃ i startedAt, server.phases i = .draining startedAt
  single : ∀ i j s t, server.phases i = .draining s → server.phases j = .draining t → i = j

theorem webhookInv_initial (options : WebhookOptions) :
    WebhookInv options WebhookServer.initial where
  lawful := lawful_nil options
  phase _ _ he := by cases he
  busy := by simp [WebhookServer.initial]
  single _ _ _ _ h := by cases h

/-- What one request does leaves the phases of the others as the record has them. -/
theorem PhaseHolds.frame {options : WebhookOptions} {i j : ℕ} {record chunk : WebhookRecord}
    {phase : WebhookPhase} (h : PhaseHolds options j record phase) (hne : j ≠ i)
    (hchunk : ∀ e ∈ chunk, e.1 = i) : PhaseHolds options j (record ++ chunk) phase := by
  have hother : ∀ e ∈ chunk, e.1 ≠ j := fun e he => by
    rw [hchunk e he]
    exact hne.symm
  have hmem : ∀ event, (j, event) ∈ record ++ chunk ↔ (j, event) ∈ record := fun event => by
    rw [List.mem_append]
    exact or_iff_left fun he => hother _ he rfl
  cases phase with
  | absent =>
    intro e he
    rcases List.mem_append.mp he with he | he
    · exact h e he
    · exact hother e he
  | draining =>
    obtain ⟨hflight, ⟨hstarted, hopen⟩, hwelcome, hready⟩ := h
    refine ⟨by rw [batchState_append_of_ne hother, hflight], ⟨?_, ?_⟩, hwelcome.append chunk, ?_⟩
    · simpa only [hmem] using hstarted
    · simpa only [hmem] using hopen
    · simpa only [hmem] using hready
  | answered =>
    refine ⟨by rw [batchState_append_of_ne hother]; exact h.1, ?_⟩
    simpa only [hmem] using h.2

/-- What a request does keeps the invariant, if it keeps it for itself. -/
theorem WebhookInv.advance {options : WebhookOptions} {server server' : WebhookServer}
    (h : WebhookInv options server) {i : ℕ} {chunk : WebhookRecord} {phase : WebhookPhase}
    (hrecord : server'.record = server.record ++ chunk) (hchunk : ∀ e ∈ chunk, e.1 = i)
    (hphases : server'.phases = Function.update server.phases i phase)
    (hlawful : Lawful options server'.record) (hphase : PhaseHolds options i server'.record phase)
    (hbusy : server'.busy = true ↔ (∃ s, phase = .draining s) ∨
      ∃ j s, j ≠ i ∧ server.phases j = .draining s)
    (halone : ∀ s, phase = .draining s → ∀ j t, j ≠ i → server.phases j ≠ .draining t) :
    WebhookInv options server' where
  lawful := hlawful
  phase j := by
    rw [hphases]
    by_cases hj : j = i
    · subst hj
      rwa [Function.update_self]
    · rw [Function.update_of_ne hj, hrecord]
      exact (h.phase j).frame hj hchunk
  busy := by
    rw [hbusy, hphases]
    constructor
    · rintro (⟨s, rfl⟩ | ⟨j, s, hj, hs⟩)
      · exact ⟨i, s, Function.update_self _ _ _⟩
      · exact ⟨j, s, by rw [Function.update_of_ne hj, hs]⟩
    · rintro ⟨j, s, hs⟩
      by_cases hj : j = i
      · subst hj
        rw [Function.update_self] at hs
        exact Or.inl ⟨s, hs⟩
      · rw [Function.update_of_ne hj] at hs
        exact Or.inr ⟨j, s, hj, hs⟩
  single j k s t hs ht := by
    rw [hphases] at hs ht
    by_cases hj : j = i
    · by_cases hk : k = i
      · rw [hj, hk]
      · rw [hj, Function.update_self] at hs
        rw [Function.update_of_ne hk] at ht
        exact absurd ht (halone s hs k t hk)
    · rw [Function.update_of_ne hj] at hs
      by_cases hk : k = i
      · rw [hk, Function.update_self] at ht
        exact absurd hs (halone t ht j s hj)
      · rw [Function.update_of_ne hk] at ht
        exact h.single j k s t hs ht

/-! ## One step -/

/-- A request on its way, after a step of it has begun and before it is answered or awaits again. -/
structure OnItsWay (options : WebhookOptions) (server : WebhookServer) (i : ℕ)
    (onWay : WebhookServer) : Prop where
  record : ∃ chunk, onWay.record = server.record ++ chunk ∧ ∀ e ∈ chunk, e.1 = i
  phases : onWay.phases = server.phases
  lawful : Lawful options onWay.record
  landed : batchState i onWay.record ≠ .inFlight

theorem own_snoc {i : ℕ} {chunk : WebhookRecord} (h : ∀ e ∈ chunk, e.1 = i) (event : WebhookEvent) :
    ∀ e ∈ chunk ++ [(i, event)], e.1 = i := by
  intro e he
  rcases List.mem_append.mp he with he | he
  · exact h e he
  · rw [List.mem_singleton.mp he]

section Step

variable {options : WebhookOptions} {server onWay : WebhookServer} {i : ℕ}

/-- What a request reads is logged on its way. -/
theorem OnItsWay.read (h : OnItsWay options server i onWay)
    (availability : WorkerWebhookAvailability) :
    OnItsWay options server i (onWay.log i (.read availability)) where
  record := by
    obtain ⟨chunk, hrecord, hchunk⟩ := h.record
    exact ⟨chunk ++ [(i, .read availability)], by simp [WebhookServer.log, hrecord],
      own_snoc hchunk _⟩
  phases := h.phases
  lawful := h.lawful.snoc trivial
  landed := by
    rw [WebhookServer.log, batchState_append]
    exact h.landed

/-- A request is answered, with a flag that is that of the others. -/
theorem OnItsWay.answered (hinv : WebhookInv options server) (h : OnItsWay options server i onWay)
    {response : WorkerWebhookResponse} (hok : response.status = 200 ↔
      batchState i onWay.record = .ended (some 0))
    (hstatus : Begun i onWay.record → response.status = 200 ∨ response.status = 503)
    {server' : WebhookServer} (hrecord : server'.record = onWay.record ++ [(i, .answered response)])
    (hphases : server'.phases = Function.update onWay.phases i .answered)
    (hbusy : server'.busy = true ↔ ∃ j s, j ≠ i ∧ server.phases j = .draining s) :
    WebhookInv options server' := by
  obtain ⟨chunk, hchunk, hown⟩ := h.record
  have hextended : server'.record = server.record ++ (chunk ++ [(i, .answered response)]) := by
    rw [hrecord, hchunk, List.append_assoc]
  have hmoved : server'.phases = Function.update server.phases i .answered := by
    rw [hphases, h.phases]
  refine hinv.advance hextended (own_snoc hown _) hmoved ?_ ?_ ?_ ?_
  · rw [hrecord]
    exact h.lawful.snoc ⟨hok, hstatus⟩
  · rw [hrecord]
    refine ⟨?_, response, by simp⟩
    rw [batchState_append]
    exact h.landed
  · simpa using hbusy
  · rintro s hs
    cases hs

/-- A request that is not draining has no batch in flight. -/
theorem not_inFlight {record : WebhookRecord} {phase : WebhookPhase}
    (h : PhaseHolds options i record phase) (hphase : ∀ s, phase ≠ .draining s) :
    batchState i record ≠ .inFlight := by
  cases phase with
  | absent =>
    rw [batchState_of_absent h]
    simp
  | draining s => exact absurd rfl (hphase s)
  | answered => exact h.1

/-- The last answer of a request that was draining: no other request is. -/
theorem OnItsWay.finish (hinv : WebhookInv options server) (h : OnItsWay options server i onWay)
    {response : WorkerWebhookResponse} (hok : response.status = 200 ↔
      batchState i onWay.record = .ended (some 0))
    (hstatus : response.status = 200 ∨ response.status = 503)
    (halone : ∀ j t, j ≠ i → server.phases j ≠ .draining t) :
    WebhookInv options (onWay.finish i response) := by
  refine h.answered hinv hok (fun _ => hstatus) rfl rfl ?_
  simp only [WebhookServer.finish, Bool.false_eq_true, false_iff, not_exists, not_and]
  exact fun j s hj => halone j s hj

/-- The head of the loop. -/
theorem OnItsWay.loopHead (hinv : WebhookInv options server) (h : OnItsWay options server i onWay)
    (hwelcome : Welcome options i onWay.record)
    (hready : ∀ availability, (i, .read availability) ∈ onWay.record → availability = .ready)
    (hmore : batchState i onWay.record ≠ .ended (some 0))
    (halone : ∀ j t, j ≠ i → server.phases j ≠ .draining t) (hbusy : onWay.busy = true)
    (hopen : ∀ response, (i, .answered response) ∉ onWay.record) (startedAt now : ℚ) :
    WebhookInv options (onWay.loopHead i startedAt now) := by
  unfold WebhookServer.loopHead
  split
  · exact h.finish hinv (by simp [WorkerWebhookResponse.unavailable, hmore]) (Or.inr rfl) halone
  · next hbudget =>
    obtain ⟨chunk, hchunk, hown⟩ := h.record
    have hnone : ∀ j, batchState j onWay.record ≠ .inFlight := fun j => by
      by_cases hj : j = i
      · rw [hj]
        exact h.landed
      · rw [hchunk, batchState_append_of_ne fun e he hej => hj (hej.symm.trans (hown e he))]
        exact not_inFlight (hinv.phase j) fun s => halone j s hj
    have hstarted : Lawful options (onWay.record ++ [(i, .started (now - startedAt))]) :=
      h.lawful.snoc ⟨not_le.mp hbudget, hready, hnone, hwelcome⟩
    have hextended : onWay.record ++ [(i, .started (now - startedAt))] =
        server.record ++ (chunk ++ [(i, .started (now - startedAt))]) := by
      rw [hchunk, List.append_assoc]
    have hmoved : Function.update onWay.phases i (.draining startedAt) =
        Function.update server.phases i (.draining startedAt) := by
      rw [h.phases]
    refine hinv.advance hextended (own_snoc hown _) hmoved hstarted ?_ ?_ ?_
    · refine ⟨by simp [WebhookServer.log, BatchState.next], ⟨⟨now - startedAt, ?_⟩, ?_⟩,
        hwelcome.append _, ?_⟩
      · simp [WebhookServer.log]
      · simpa [WebhookServer.log] using hopen
      · simpa [WebhookServer.log] using hready
    · simp [WebhookServer.log, hbusy]
    · exact fun _ _ j t hj => halone j t hj

/-- A request that is draining is in its phase. -/
theorem WebhookInv.nobody_draining (hinv : WebhookInv options server)
    (hall : ∀ j t, server.phases j ≠ .draining t) (j : ℕ) : ¬ Draining j server.record := by
  intro hj
  have hphase := hinv.phase j
  cases hp : server.phases j with
  | draining t => exact hall j t hp
  | absent =>
    rw [hp] at hphase
    obtain ⟨⟨elapsed, hstarted⟩, -⟩ := hj
    exact hphase _ hstarted rfl
  | answered =>
    rw [hp] at hphase
    obtain ⟨-, response, hresponse⟩ := hphase
    exact hj.2 response hresponse

/-- A request arrives. -/
theorem WebhookInv.arrives (hinv : WebhookInv options server) (habsent : server.phases i = .absent)
    (input : WorkerWebhookRequest) (readings : WebhookReadings) :
    WebhookInv options (webhookArrives options i input readings server) := by
  have hnew : ∀ e ∈ server.record, e.1 ≠ i := by
    have hphase := hinv.phase i
    rwa [habsent] at hphase
  have hnone := batchState_of_absent hnew
  -- the request is logged before it is looked at
  have harrived : OnItsWay options server i (server.log i (.arrived input)) :=
    { record := ⟨[(i, .arrived input)], rfl, by simp⟩
      phases := rfl
      lawful := hinv.lawful.snoc hnew
      landed := by simp [WebhookServer.log, BatchState.next, hnone] }
  have hbusy : server.busy = true ↔ ∃ j s, j ≠ i ∧ server.phases j = .draining s := by
    rw [hinv.busy]
    constructor
    · rintro ⟨j, s, hs⟩
      refine ⟨j, s, ?_, hs⟩
      rintro rfl
      rw [habsent] at hs
      cases hs
    · rintro ⟨j, s, -, hs⟩
      exact ⟨j, s, hs⟩
  have hfresh : ∀ event, (i, event) ∉ server.record := fun event he => hnew _ he rfl
  unfold webhookArrives
  dsimp only
  split
  · refine harrived.answered hinv ?_ ?_ rfl rfl hbusy
    · simp [WebhookServer.log, BatchState.next, hnone, WorkerWebhookResponse.methodNotAllowed]
    · simp [WebhookServer.log, Begun, hfresh]
  · next hmethod =>
    split
    · refine harrived.answered hinv ?_ ?_ rfl rfl hbusy
      · simp [WebhookServer.log, BatchState.next, hnone, WorkerWebhookResponse.unauthorized]
      · simp [WebhookServer.log, Begun, hfresh]
    · next htoken =>
      have hread := harrived.read readings.availability
      split
      · refine hread.answered hinv ?_ ?_ rfl rfl hbusy
        · simp [WebhookServer.log, BatchState.next, hnone, WorkerWebhookResponse.unavailable]
        · exact fun _ => Or.inr rfl
      · next hfree =>
        have hidle : server.busy = false ∧ readings.availability = .ready := by
          simpa [WebhookServer.log] using hfree
        -- the flag is down, so no other request drains
        have hall : ∀ j t, server.phases j ≠ .draining t := fun j t ht => by
          have hset := hinv.busy.mpr ⟨j, t, ht⟩
          rw [hidle.1] at hset
          cases hset
        have hwelcome : Welcome options i ((server.log i (.arrived input)).log i
            (.read readings.availability)).record := by
          refine ⟨server.record, input, [(i, .read readings.availability)],
            by simp [WebhookServer.log], by simpa using hmethod, by simpa using htoken,
            hinv.nobody_draining hall⟩
        -- the flag is set before the first batch
        have hset : OnItsWay options server i
            { (server.log i (.arrived input)).log i (.read readings.availability) with
              busy := true } :=
          ⟨hread.record, hread.phases, hread.lawful, hread.landed⟩
        refine hset.loopHead hinv hwelcome ?_ ?_ (fun j t _ => hall j t) rfl ?_ _ _
        · intro availability hmem
          rcases List.mem_append.mp hmem with hmem | hmem
          · rcases List.mem_append.mp hmem with hmem | hmem
            · exact absurd rfl (hnew _ hmem)
            · simp at hmem
          · have hsame : availability = readings.availability := by simpa using hmem
            rw [hsame, hidle.2]
        · simp [WebhookServer.log, BatchState.next, hnone]
        · simpa [WebhookServer.log] using fun response hmem => hnew (i, .answered response) hmem rfl

/-- A batch ends. -/
theorem WebhookInv.settles (hinv : WebhookInv options server) {startedAt : ℚ}
    (hdraining : server.phases i = .draining startedAt) (outcome : Option Nat)
    (readings : WebhookReadings) :
    WebhookInv options (webhookSettles i startedAt outcome readings server) := by
  obtain ⟨hflight, ⟨hstarted, hopen⟩, hwelcome, hready⟩ :
      PhaseHolds options i server.record (.draining startedAt) := by
    have hphase := hinv.phase i
    rwa [hdraining] at hphase
  have halone : ∀ j t, j ≠ i → server.phases j ≠ .draining t := fun j t hj ht =>
    hj (hinv.single j i t startedAt ht hdraining)
  have hended : OnItsWay options server i (server.log i (.ended outcome)) :=
    { record := ⟨[(i, .ended outcome)], rfl, by simp⟩
      phases := rfl
      lawful := hinv.lawful.snoc trivial
      landed := by simp [WebhookServer.log, BatchState.next] }
  have hstate : batchState i (server.log i (.ended outcome)).record = .ended outcome := by
    simp [WebhookServer.log, BatchState.next]
  rcases outcome with _ | _ | n
  · exact hended.finish hinv (by simp [hstate, WorkerWebhookResponse.unavailable]) (Or.inr rfl)
      halone
  · exact hended.finish hinv (by simp [hstate, WorkerWebhookResponse.ok]) (Or.inl rfl) halone
  · have hread := hended.read readings.availability
    have hread_state : batchState i ((server.log i (.ended (some (n + 1)))).log i
        (.read readings.availability)).record = .ended (some (n + 1)) := by
      simp [WebhookServer.log, BatchState.next]
    unfold webhookSettles
    dsimp only
    split
    · exact hread.finish hinv (by simp [hread_state, WorkerWebhookResponse.unavailable])
        (Or.inr rfl) halone
    · next havailable =>
      refine hread.loopHead hinv ?_ ?_ (by simp [hread_state]) halone ?_ ?_ _ _
      · exact (hwelcome.append _).append _
      · intro availability hmem
        rcases List.mem_append.mp hmem with hmem | hmem
        · rcases List.mem_append.mp hmem with hmem | hmem
          · exact hready availability hmem
          · simp at hmem
        · have hsame : availability = readings.availability := by simpa using hmem
          rw [hsame]
          simpa using havailable
      · exact hinv.busy.mpr ⟨i, startedAt, hdraining⟩
      · simpa [WebhookServer.log] using hopen

/-- **One step keeps the invariant.** -/
theorem WebhookInv.next (hinv : WebhookInv options server) (step : WebhookStep) :
    WebhookInv options ((webhookMachine options).next server step) := by
  show WebhookInv options (webhookNext options server step)
  cases step with
  | arrive i input readings =>
    simp only [webhookNext]
    split
    · next habsent => exact hinv.arrives habsent input readings
    · exact hinv
  | settle i outcome readings =>
    simp only [webhookNext]
    split
    · next startedAt hdraining => exact hinv.settles hdraining outcome readings
    · exact hinv
    · exact hinv

end Step

/-- **The invariant holds after every run.** -/
theorem webhookInv_run (options : WebhookOptions) (steps : List WebhookStep) :
    WebhookInv options ((webhookMachine options).run .initial steps) :=
  Machine.run_invariant (G := fun _ _ => True) (fun _ step hinv _ => hinv.next step)
    (webhookInv_initial options) (Machine.admits_true steps)

/-! ## What a record says -/

/-- Requests that drain the queue one at a time. -/
structure DrainsInTurn (options : WebhookOptions) (record : WebhookRecord) : Prop where
  one : ∀ before after, record = before ++ after →
    ∀ i j, batchState i before = .inFlight → batchState j before = .inFlight → i = j
  ok : ∀ before i response after, record = before ++ (i, .answered response) :: after →
    (response.status = 200 ↔ batchState i before = .ended (some 0))
  failed : ∀ before i response after, record = before ++ (i, .answered response) :: after →
    Begun i before → response.status = 200 ∨ response.status = 503
  started : ∀ before i elapsed after, record = before ++ (i, .started elapsed) :: after →
    elapsed < webhookDrainBudgetMs ∧
      ∀ availability, (i, .read availability) ∈ before → availability = .ready
  refused : ∀ before i input after, record = before ++ (i, .arrived input) :: after →
    (input.method ≠ some "POST" ∨ hasValidBearerToken options input.authorization = false ∨
      (∃ j, Draining j before) ∨
      ∃ availability rest, after = (i, .read availability) :: rest ∧ availability ≠ .ready) →
    ∀ elapsed, (i, .started elapsed) ∉ record

theorem Lawful.init {options : WebhookOptions} {before after : WebhookRecord}
    (h : Lawful options (before ++ after)) : Lawful options before := fun pre e post hsplit =>
  h pre e (post ++ after) (by simp [hsplit])

theorem Lawful.one {options : WebhookOptions} {record : WebhookRecord} (h : Lawful options record)
    {i j : ℕ} (hi : batchState i record = .inFlight) (hj : batchState j record = .inFlight) :
    i = j := by
  induction record using List.reverseRecOn with
  | nil => cases hi
  | append_singleton record e ih =>
    have hpermitted := h record e [] rfl
    obtain ⟨k, event⟩ := e
    rw [batchState_append] at hi hj
    cases event with
    | started elapsed =>
      have hnone := hpermitted.2.2.1
      have hself : ∀ l, (batchState l record).next l (k, .started elapsed) = .inFlight → k = l :=
        fun l hl => by
          by_contra hne
          exact hnone l (by simpa [BatchState.next, hne] using hl)
      exact (hself i hi).symm.trans (hself j hj)
    | ended outcome =>
      have hkept : ∀ l, (batchState l record).next l (k, .ended outcome) = .inFlight →
          batchState l record = .inFlight := fun l hl => by
        by_cases hk : k = l <;> simp_all [BatchState.next]
      exact ih h.init (hkept i hi) (hkept j hj)
    | arrived | read | answered => exact ih h.init hi hj

/-- A request arrives once. -/
theorem Lawful.arrival_unique {options : WebhookOptions} {record : WebhookRecord}
    (h : Lawful options record) {i : ℕ} {before before' after after' : WebhookRecord}
    {input input' : WorkerWebhookRequest} (hsplit : record = before ++ (i, .arrived input) :: after)
    (hsplit' : record = before' ++ (i, .arrived input') :: after') :
    before = before' ∧ input = input' ∧ after = after' := by
  have hfresh := h _ _ _ hsplit
  have hfresh' := h _ _ _ hsplit'
  have hsame := hsplit.symm.trans hsplit'
  rcases List.append_eq_append_iff.mp hsame with ⟨mid, rfl, hmid⟩ | ⟨mid, rfl, hmid⟩
  · rcases mid with _ | ⟨e, mid⟩
    · simpa using hmid
    · obtain ⟨rfl, -⟩ := List.cons.inj hmid
      exact absurd rfl (hfresh' (i, .arrived input) (by simp))
  · rcases mid with _ | ⟨e, mid⟩
    · simpa [eq_comm] using hmid
    · obtain ⟨rfl, -⟩ := List.cons.inj hmid
      exact absurd rfl (hfresh (i, .arrived input') (by simp))

theorem Lawful.drainsInTurn {options : WebhookOptions} {record : WebhookRecord}
    (h : Lawful options record) : DrainsInTurn options record where
  one before after hsplit i j hi hj := by
    subst hsplit
    exact h.init.one hi hj
  ok before i response after hsplit := (h _ _ _ hsplit).1
  failed before i response after hsplit := (h _ _ _ hsplit).2
  started before i elapsed after hsplit := ⟨(h _ _ _ hsplit).1, (h _ _ _ hsplit).2.1⟩
  refused before i input after hsplit hrefused elapsed hmem := by
    obtain ⟨front, back, hstarted⟩ := List.append_of_mem hmem
    obtain ⟨-, hready, -, pre, input', mid, hfront, hmethod, htoken, hnone⟩ := h _ _ _ hstarted
    have hsplit' : record = pre ++ (i, .arrived input') :: (mid ++ (i, .started elapsed) :: back) := by
      rw [hstarted, hfront]
      simp
    obtain ⟨rfl, rfl, rfl⟩ := h.arrival_unique hsplit hsplit'
    rcases hrefused with hpost | hinvalid | ⟨j, hj⟩ | ⟨availability, rest, hread, hlost⟩
    · exact hpost hmethod
    · rw [htoken] at hinvalid
      cases hinvalid
    · exact hnone j hj
    · rcases mid with _ | ⟨e, mid⟩
      · simp at hread
      · obtain ⟨rfl, -⟩ := List.cons.inj hread
        exact hlost (hready availability (by rw [hfront]; simp))

/-! ## The end of a batch -/

/-- What follows the end of a batch in the record, and where the request then stands. -/
inductive AfterBatch (i : ℕ) (startedAt : ℚ) (readings : WebhookReadings) :
    Option Nat → WebhookRecord → WebhookPhase → Prop
  | thrown : AfterBatch i startedAt readings none [(i, .answered .unavailable)] .answered
  | drained : AfterBatch i startedAt readings (some 0) [(i, .answered .ok)] .answered
  | lost {count : Nat} (lost : readings.availability ≠ .ready) :
      AfterBatch i startedAt readings (some (count + 1))
        [(i, .read readings.availability), (i, .answered .unavailable)] .answered
  | spent {count : Nat} (ready : readings.availability = .ready)
      (spent : webhookDrainBudgetMs ≤ readings.now - startedAt) :
      AfterBatch i startedAt readings (some (count + 1))
        [(i, .read .ready), (i, .answered .unavailable)] .answered
  | again {count : Nat} (ready : readings.availability = .ready)
      (within : readings.now - startedAt < webhookDrainBudgetMs) :
      AfterBatch i startedAt readings (some (count + 1))
        [(i, .read .ready), (i, .started (readings.now - startedAt))] (.draining startedAt)

/-- The step that ends a batch: an answer comes with the flag reset, otherwise the next batch starts. -/
theorem webhookSettles_spec (i : ℕ) (startedAt : ℚ) (outcome : Option Nat)
    (readings : WebhookReadings) (server : WebhookServer) :
    ∃ chunk phase, AfterBatch i startedAt readings outcome chunk phase ∧
      (webhookSettles i startedAt outcome readings server).record =
        server.record ++ (i, .ended outcome) :: chunk ∧
      (webhookSettles i startedAt outcome readings server).phases =
        Function.update server.phases i phase ∧
      (phase = .answered → (webhookSettles i startedAt outcome readings server).busy = false) := by
  rcases outcome with _ | _ | count
  · exact ⟨_, _, .thrown, by simp [webhookSettles, WebhookServer.finish, WebhookServer.answer,
      WebhookServer.log], rfl, fun _ => rfl⟩
  · exact ⟨_, _, .drained, by simp [webhookSettles, WebhookServer.finish, WebhookServer.answer,
      WebhookServer.log], rfl, fun _ => rfl⟩
  · by_cases hready : readings.availability = .ready
    · by_cases hspent : webhookDrainBudgetMs ≤ readings.now - startedAt
      · have hstep : webhookSettles i startedAt (some (count + 1)) readings server =
            ((server.log i (.ended (some (count + 1)))).log i (.read .ready)).finish i
              .unavailable := by
          simp [webhookSettles, hready, WebhookServer.loopHead, hspent]
        rw [hstep]
        exact ⟨_, _, .spent hready hspent, by simp [WebhookServer.finish, WebhookServer.answer,
          WebhookServer.log], rfl, fun _ => rfl⟩
      · refine ⟨_, _, .again hready (not_le.mp hspent), ?_, ?_, fun hphase => by cases hphase⟩
        · simp [webhookSettles, hready, WebhookServer.loopHead, hspent, WebhookServer.log]
        · simp [webhookSettles, hready, WebhookServer.loopHead, hspent, WebhookServer.log]
    · have hstep : webhookSettles i startedAt (some (count + 1)) readings server =
          ((server.log i (.ended (some (count + 1)))).log i
            (.read readings.availability)).finish i .unavailable := by
        simp [webhookSettles, hready]
      rw [hstep]
      exact ⟨_, _, .lost hready, by simp [WebhookServer.finish, WebhookServer.answer,
        WebhookServer.log], rfl, fun _ => rfl⟩

section

variable {options : WebhookOptions} {server : WebhookServer}

/-- A request that is draining in the record is in its phase. -/
theorem WebhookInv.draining_iff (hinv : WebhookInv options server) (i : ℕ) :
    Draining i server.record ↔ ∃ startedAt, server.phases i = .draining startedAt := by
  have hphase := hinv.phase i
  cases hp : server.phases i with
  | absent =>
    rw [hp] at hphase
    refine iff_of_false ?_ (by simp)
    rintro ⟨⟨elapsed, hstarted⟩, -⟩
    exact hphase _ hstarted rfl
  | draining startedAt =>
    rw [hp] at hphase
    exact iff_of_true hphase.2.1 ⟨startedAt, rfl⟩
  | answered =>
    rw [hp] at hphase
    refine iff_of_false ?_ (by simp)
    rintro ⟨-, hopen⟩
    obtain ⟨-, response, hresponse⟩ := hphase
    exact hopen response hresponse

/-- The flag is set while a request is draining in the record. -/
theorem WebhookInv.busy_eq_false_iff (hinv : WebhookInv options server) :
    server.busy = false ↔ ∀ j, ¬ Draining j server.record := by
  rw [Bool.eq_false_iff, Ne, hinv.busy]
  simp [hinv.draining_iff]

/-- A request that the record has nothing of has not come. -/
theorem WebhookInv.absent (hinv : WebhookInv options server) {i : ℕ}
    (hnew : ∀ e ∈ server.record, e.1 ≠ i) : server.phases i = .absent := by
  have hphase := hinv.phase i
  cases hp : server.phases i with
  | absent => rfl
  | draining startedAt =>
    rw [hp] at hphase
    obtain ⟨-, ⟨⟨elapsed, hstarted⟩, -⟩, -⟩ := hphase
    exact absurd rfl (hnew _ hstarted)
  | answered =>
    rw [hp] at hphase
    obtain ⟨-, response, hresponse⟩ := hphase
    exact absurd rfl (hnew _ hresponse)

end

/--
**The webhook drains the queue one request at a time**, in every interleaving of requests. When the
batch of a request ends, the request is answered or starts its next batch; after the answer no request
is draining; and while none is, the next one that is authorized and finds the worker ready drains.
-/
theorem webhook_drains (options : WebhookOptions) (steps : List WebhookStep) :
    let server := (webhookMachine options).run .initial steps
    DrainsInTurn options server.record ∧
      (∀ i outcome readings, Draining i server.record →
        let server' := (webhookMachine options).next server (.settle i outcome readings)
        ∃ startedAt chunk phase, server.phases i = .draining startedAt ∧
          AfterBatch i startedAt readings outcome chunk phase ∧
          server'.record = server.record ++ (i, .ended outcome) :: chunk ∧
          server'.phases = Function.update server.phases i phase ∧
          (phase = .answered → server'.busy = false ∧ ∀ j, ¬ Draining j server'.record)) ∧
      ∀ i input readings, (∀ e ∈ server.record, e.1 ≠ i) → (∀ j, ¬ Draining j server.record) →
        input.method = some "POST" → hasValidBearerToken options input.authorization = true →
        readings.availability = .ready →
        readings.now - readings.startedAt < webhookDrainBudgetMs →
        let server' := (webhookMachine options).next server (.arrive i input readings)
        server'.record = server.record ++ [(i, .arrived input), (i, .read .ready),
            (i, .started (readings.now - readings.startedAt))] ∧
          server'.phases = Function.update server.phases i (.draining readings.startedAt) := by
  intro server
  have hinv := webhookInv_run options steps
  refine ⟨hinv.lawful.drainsInTurn, fun i outcome readings hdraining => ?_,
    fun i input readings hnew hidle hmethod htoken hready hbudget => ?_⟩
  · intro server'
    obtain ⟨startedAt, hphase⟩ := (hinv.draining_iff i).mp hdraining
    have hnext : server' = webhookSettles i startedAt outcome readings server := by
      show webhookNext options server (.settle i outcome readings) = _
      simp only [webhookNext]
      rw [hphase]
    obtain ⟨chunk, phase, hafter, hrecord, hphases, hanswered⟩ :=
      webhookSettles_spec i startedAt outcome readings server
    rw [← hnext] at hrecord hphases hanswered
    refine ⟨startedAt, chunk, phase, hphase, hafter, hrecord, hphases, fun hend => ?_⟩
    have hfree := hanswered hend
    exact ⟨hfree, (hinv.next (.settle i outcome readings)).busy_eq_false_iff.mp hfree⟩
  · intro server'
    have hfree : server.busy = false := hinv.busy_eq_false_iff.mpr hidle
    have hnext : server' = webhookArrives options i input readings server := by
      show webhookNext options server (.arrive i input readings) = _
      exact if_pos (hinv.absent hnew)
    rw [hnext]
    simp [webhookArrives, hmethod, htoken, hready, WebhookServer.log, WebhookServer.loopHead,
      hfree, not_le.mpr hbudget]

/-! ## A batch that throws -/

namespace WebhookSample

/-- The digest of the token, and of it alone. -/
def options : WebhookOptions where
  token := "secret"
  sha256 text :=
    if text = "secret" then
      [43, 184, 13, 83, 123, 29, 163, 227, 139, 211, 3, 97, 170, 133, 86, 134, 189, 224, 234, 205,
        113, 98, 254, 246, 162, 95, 233, 123, 245, 39, 162, 91]
    else []

def post : WorkerWebhookRequest := ⟨some "Bearer secret", some "POST"⟩

def readings (startedAt : ℚ) : WebhookReadings := ⟨.ready, startedAt, startedAt⟩

end WebhookSample

open WebhookSample in
/-- After a batch has thrown, the request is answered with 503 and the next one drains. -/
theorem webhook_drains_thrown :
    ((webhookMachine options).run .initial [.arrive 0 post (readings 0),
        .settle 0 none (readings 5), .arrive 1 post (readings 9)]).record =
      [(0, .arrived post), (0, .read .ready), (0, .started 0), (0, .ended none),
        (0, .answered .unavailable), (1, .arrived post), (1, .read .ready), (1, .started 0)] := by
  have htoken : hasValidBearerToken options post.authorization = true := by decide +kernel
  have hbudget : ∀ startedAt : ℚ, startedAt - startedAt < webhookDrainBudgetMs := by
    norm_num [webhookDrainBudgetMs]
  have hfirst : ((webhookMachine options).run .initial [.arrive 0 post (readings 0)]).record =
      [(0, .arrived post), (0, .read .ready), (0, .started (0 - 0))] :=
    ((webhook_drains options []).2.2 0 post (readings 0) (by rintro e ⟨⟩)
      (by rintro j ⟨⟨elapsed, ⟨⟩⟩, -⟩) rfl htoken rfl (hbudget 0)).1
  have hdraining : Draining 0
      ((webhookMachine options).run .initial [.arrive 0 post (readings 0)]).record := by
    rw [hfirst]
    exact ⟨⟨0 - 0, by simp⟩, by simp⟩
  obtain ⟨startedAt, chunk, phase, -, hafter, hrecord, -, hidle⟩ :=
    (webhook_drains options [.arrive 0 post (readings 0)]).2.1 0 none (readings 5) hdraining
  cases hafter
  have hended : ((webhookMachine options).run .initial [.arrive 0 post (readings 0),
      .settle 0 none (readings 5)]).record = [(0, .arrived post), (0, .read .ready),
        (0, .started (0 - 0)), (0, .ended none), (0, .answered .unavailable)] := by
    rw [hfirst] at hrecord
    exact hrecord
  have hsecond := ((webhook_drains options [.arrive 0 post (readings 0),
    .settle 0 none (readings 5)]).2.2 1 post (readings 9) (by rw [hended]; simp) (hidle rfl).2 rfl
      htoken rfl (hbudget 9)).1
  rw [hended] at hsecond
  simpa [readings] using hsecond

end InboxServer
