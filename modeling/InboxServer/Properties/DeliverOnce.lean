import InboxServer.Properties.DispatchOrder
import InboxServer.Properties.Effects

/-!
# One delivery of each effect

Any number of runs of the job handler, on one effect store. A run may stop anywhere, the requests to
the store and its answers may get lost, and a job may be handled again at any time.

* `delivers_once` — while no claim takes over an effect that has stood in processing for ten minutes,
  a delivery starts only once every earlier one of its effect has definitely failed
* `Overtaken.delivers_twice` — a claim that takes over delivers again what is still in flight
-/

namespace InboxServer

open Infra

/-! ## The store behind the client -/

/-- What becomes of a request to the control plane. -/
inductive Transit where
  | answered | requestLost | answerLost
  deriving DecidableEq

/-- What a call meets: the time, the way to the store, and what everything else answers. -/
structure Moment where
  now : Instant
  transit : Transit
  world : (c : HandlerCall) → c.Answer

def Moment.arrives (moment : Moment) : Bool := moment.transit ≠ .requestLost

/-- The answer as `createWorkerControlPlane` passes it on. -/
def clientAnswer {α : Type} (transit : Transit) (reply : Except ErrorText α) : Except Thrown α :=
  match transit, reply with
  | .answered, .ok a => .ok a
  | .answered, .error _ => .error (.error false "control plane request failed: 500")
  | .requestLost, _ | .answerLost, _ => .error (.error true "fetch failed")

/-- One call of the handler; the effect store is the one on PostgreSQL. -/
def serveHandler (moment : Moment) (db : Db) : (c : HandlerCall) → Db × c.Answer
  | .claimEffect input =>
    let served := Backend.postgres.claimEffect moment.now input db
    (if moment.arrives then served.1 else db, clientAnswer moment.transit served.2)
  | .finishEffect effectKey result =>
    let served := Backend.postgres.finishEffect moment.now effectKey result db
    (if moment.arrives then served.1 else db, clientAnswer moment.transit served.2)
  | c => (db, moment.world c)

/-! ## Attempts -/

/-- How far a delivery has come, as far as the store knows. -/
inductive Fate where
  | inFlight
  | ended (result : Except Thrown DeliveryResult)
  | recorded (result : Except Thrown DeliveryResult) (outcome : EffectOutcome)
  deriving DecidableEq

/-- The delivery ended with the quota, or with a failure that is recorded as one. -/
def Fate.Definite : Fate → Prop
  | .ended (.ok .quota) | .recorded (.ok .quota) _ => True
  | .recorded (.ok (.fail ..)) .failed => True
  | _ => False

/-- A delivery that a run of the handler has started. -/
structure Attempt where
  run : ℕ
  effectKey : String
  fate : Fate
  deriving DecidableEq

/-- The delivery in flight of a run ends. -/
def Attempt.end (run : ℕ) (effectKey : String) (result : Except Thrown DeliveryResult)
    (attempt : Attempt) : Attempt :=
  match attempt.fate with
  | .inFlight =>
    if attempt.run = run ∧ attempt.effectKey = effectKey then { attempt with fate := .ended result }
    else attempt
  | .ended _ | .recorded .. => attempt

/-- The delivery of a run that has ended is recorded. -/
def Attempt.record (run : ℕ) (effectKey : String) (outcome : EffectOutcome) (attempt : Attempt) :
    Attempt :=
  match attempt.fate with
  | .ended result =>
    if attempt.run = run ∧ attempt.effectKey = effectKey then
      { attempt with fate := .recorded result outcome }
    else attempt
  | .inFlight | .recorded .. => attempt

/-- The ledger after a call of a run. -/
def nextLedger (ledger : List Attempt) (run : ℕ) (arrives : Bool) :
    (c : HandlerCall) → c.Answer → List Attempt
  | .startDelivery delivery, _ => ledger ++ [⟨run, delivery.effectKey, .inFlight⟩]
  | .awaitDelivery delivery, result => ledger.map (Attempt.end run delivery.effectKey result)
  | .finishEffect effectKey finish, _ =>
    if arrives then ledger.map (Attempt.record run effectKey finish.outcome) else ledger
  | _, _ => ledger

/-! ## Fleets -/

/-- Runs of the handler, numbered as they start, and the ledger of their deliveries. -/
structure Fleet where
  pool : Pool ℕ Db HandlerCall HandlerCall.Answer (Except Thrown JobHandlerResult)
  started : ℕ
  ledger : List Attempt

inductive FleetStep where
  | start (options : HandlerOptions) (input : Json)
  | call (run : ℕ) (moment : Moment)
  | crash (run : ℕ)

/-- A fleet without a run, on a database. -/
def Fleet.on (db : Db) : Fleet where
  pool := { shared := db, procs := fun _ => none }
  started := 0
  ledger := []

def fleetMachine (env : Env) : Machine Fleet FleetStep Unit where
  step fleet
    | .start options input =>
      ({ fleet with
        pool := fleet.pool.start fleet.started (handle env options input)
        started := fleet.started + 1 }, ())
    | .call run moment =>
      match fleet.pool.procs run with
      | some (.call c _) =>
        ({ fleet with
          pool := fleet.pool.advance serveHandler run moment
          ledger := nextLedger fleet.ledger run moment.arrives c
            (serveHandler moment fleet.pool.shared c).2 }, ())
      | some (.ret _) | none => (fleet, ())
    | .crash run => ({ fleet with pool := fleet.pool.crash run }, ())

/-- The call that the step makes. -/
def Fleet.makes (fleet : Fleet) : FleetStep → Option HandlerCall
  | .call run _ => (fleet.pool.procs run).bind Prog.call?
  | .start .. | .crash _ => none

/-- The call claims an effect that has stood in processing for more than ten minutes. -/
def claimsOverdue (db : Db) (now : Instant) : HandlerCall → Bool
  | .claimEffect input => (effectRow input.effectKey db).any fun row =>
    row.status = .processing && isStale row.updatedAt now
  | _ => false

/-- The step takes over an effect whose outcome is open. -/
def TakesOver (fleet : Fleet) : FleetStep → Prop
  | .call run moment => moment.arrives = true ∧
    (fleet.makes (.call run moment)).any (claimsOverdue fleet.pool.shared moment.now) = true
  | .start .. | .crash _ => False

instance (fleet : Fleet) : (step : FleetStep) → Decidable (TakesOver fleet step)
  | .call .. => inferInstanceAs (Decidable (_ ∧ _))
  | .start .. | .crash _ => inferInstanceAs (Decidable False)

/-! ## What the hands tell -/

/-- What the hand of a run tells of an attempt. -/
def Hand.Tells (run : ℕ) (attempt : Attempt) : Hand → Prop
  | .claimed k => attempt.effectKey = k → attempt.fate.Definite
  | .delivering k => attempt.effectKey = k →
    attempt.fate.Definite ∨ (attempt.run = run ∧ attempt.fate = .inFlight)
  | .ended k result => attempt.effectKey = k →
    attempt.fate.Definite ∨ (attempt.run = run ∧ attempt.fate = .ended result)
  | .free | .stuck _ => True

theorem Hand.tells_of_ne {run : ℕ} {attempt : Attempt} {hand : Hand}
    (h : hand.key? ≠ some attempt.effectKey) : hand.Tells run attempt := by
  cases hand with
  | free | stuck => trivial
  | claimed k | delivering k | ended k =>
    intro hk
    exact absurd (congrArg some hk.symm) h

/-- The effects in hand are in processing, each in one hand, and the ledger agrees with the hands. -/
structure FleetInv (fleet : Fleet) (hands : ℕ → Hand) : Prop where
  governed : Governed handProtocol (fun hand _ => hand.Over) fleet.pool hands
  processing : ∀ run k, (hands run).key? = some k →
    effectStatus k fleet.pool.shared = some .processing
  holder : ∀ run run' k, (hands run).key? = some k → (hands run').key? = some k → run = run'
  open_ : ∀ attempt ∈ fleet.ledger, ¬ attempt.fate.Definite →
    ∃ status, effectStatus attempt.effectKey fleet.pool.shared = some status ∧ status ≠ .failed
  tells : ∀ run, ∀ attempt ∈ fleet.ledger, (hands run).Tells run attempt

/-- What a call of one run has to keep, with the hand before it and after it. -/
structure KeepsHands (run : ℕ) (hand hand' : Hand) (db db' : Db) (ledger ledger' : List Attempt) :
    Prop where
  held : ∀ k, hand'.key? = some k → effectStatus k db' = some .processing
  fresh : ∀ k, hand'.key? = some k → hand.key? = some k ∨ effectStatus k db ≠ some .processing
  others : ∀ k, effectStatus k db = some .processing → hand.key? ≠ some k →
    effectStatus k db' = some .processing
  open_ : ∀ attempt ∈ ledger', ¬ attempt.fate.Definite →
    ∃ status, effectStatus attempt.effectKey db' = some status ∧ status ≠ .failed
  moved : ∀ attempt ∈ ledger', attempt ∈ ledger ∨ hand.key? = some attempt.effectKey
  tells : ∀ attempt ∈ ledger', hand'.Tells run attempt

/-- A call that keeps what its run has to keep the invariant with it. -/
theorem FleetInv.advance {fleet fleet' : Fleet} {hands : ℕ → Hand} (h : FleetInv fleet hands)
    {run : ℕ} {hand' : Hand}
    (hgoverned : Governed handProtocol (fun hand _ => hand.Over) fleet'.pool
      (Function.update hands run hand'))
    (hkeeps : KeepsHands run (hands run) hand' fleet.pool.shared fleet'.pool.shared fleet.ledger
      fleet'.ledger) :
    FleetInv fleet' (Function.update hands run hand') := by
  have hself : Function.update hands run hand' run = hand' := Function.update_self _ _ _
  have hother : ∀ {other}, other ≠ run → Function.update hands run hand' other = hands other :=
    fun hne => Function.update_of_ne hne _ _
  -- Another hand holds another effect.
  have hdifferent : ∀ other k, other ≠ run → (hands other).key? = some k →
      (hands run).key? ≠ some k := fun other k hne hk hrun => hne (h.holder _ _ _ hk hrun)
  refine ⟨hgoverned, fun other k hk => ?_, fun a b k ha hb => ?_, hkeeps.open_,
    fun other attempt hattempt => ?_⟩
  · by_cases hne : other = run
    · rw [hne, hself] at hk
      exact hkeeps.held k hk
    · rw [hother hne] at hk
      exact hkeeps.others k (h.processing other k hk) (hdifferent other k hne hk)
  · have hclash : ∀ other, other ≠ run → hand'.key? = some k → (hands other).key? = some k →
        False := by
      intro other hne hrun hk
      rcases hkeeps.fresh k hrun with hheld | hnot
      · exact hdifferent other k hne hk hheld
      · exact hnot (h.processing other k hk)
    by_cases hna : a = run
    · by_cases hnb : b = run
      · rw [hna, hnb]
      · rw [hna, hself] at ha
        rw [hother hnb] at hb
        exact (hclash b hnb ha hb).elim
    · by_cases hnb : b = run
      · rw [hnb, hself] at hb
        rw [hother hna] at ha
        exact (hclash a hna hb ha).elim
      · rw [hother hna] at ha
        rw [hother hnb] at hb
        exact h.holder a b k ha hb
  · by_cases hne : other = run
    · subst hne
      rw [hself]
      exact hkeeps.tells attempt hattempt
    · rw [hother hne]
      rcases hkeeps.moved attempt hattempt with hold | hkey
      · exact h.tells other attempt hold
      · exact Hand.tells_of_ne fun hk => hdifferent other _ hne hk hkey

/-! ## One call -/

theorem Attempt.end_effectKey (run : ℕ) (effectKey : String) (result : Except Thrown DeliveryResult)
    (attempt : Attempt) : (attempt.end run effectKey result).effectKey = attempt.effectKey := by
  unfold Attempt.end
  split
  · split <;> rfl
  · rfl
  · rfl

theorem Attempt.record_effectKey (run : ℕ) (effectKey : String) (outcome : EffectOutcome)
    (attempt : Attempt) : (attempt.record run effectKey outcome).effectKey = attempt.effectKey := by
  unfold Attempt.record
  split
  · split <;> rfl
  · rfl
  · rfl

/-- Only a delivery of the effect ends. -/
theorem Attempt.end_moved (run : ℕ) (effectKey : String) (result : Except Thrown DeliveryResult)
    (attempt : Attempt) :
    attempt.end run effectKey result = attempt ∨ attempt.effectKey = effectKey := by
  unfold Attempt.end
  split
  · split
    · next hrun => exact Or.inr hrun.2
    · exact Or.inl rfl
  · exact Or.inl rfl
  · exact Or.inl rfl

/-- Only a delivery of the effect is recorded. -/
theorem Attempt.record_moved (run : ℕ) (effectKey : String) (outcome : EffectOutcome)
    (attempt : Attempt) :
    attempt.record run effectKey outcome = attempt ∨ attempt.effectKey = effectKey := by
  unfold Attempt.record
  split
  · split
    · next hrun => exact Or.inr hrun.2
    · exact Or.inl rfl
  · exact Or.inl rfl
  · exact Or.inl rfl

/-- A delivery whose fate is definite is not in flight. -/
theorem Attempt.end_of_definite {run : ℕ} {effectKey : String}
    {result : Except Thrown DeliveryResult} {attempt : Attempt} (h : attempt.fate.Definite) :
    attempt.end run effectKey result = attempt := by
  unfold Attempt.end
  split
  · next hfate => rw [hfate] at h; exact h.elim
  · rfl
  · rfl

/-- What is definite stays so when it is recorded. -/
theorem Attempt.record_definite {run : ℕ} {effectKey : String} {outcome : EffectOutcome}
    {attempt : Attempt} (h : attempt.fate.Definite) :
    (attempt.record run effectKey outcome).fate.Definite := by
  unfold Attempt.record
  split
  · next result hfate =>
    split
    · rw [hfate] at h
      rcases result with e | ⟨⟩ | ⟨⟩ | ⟨beforeWrite, reasonCode, status⟩
      · exact h.elim
      · exact h.elim
      · trivial
      · exact h.elim
    · exact h
  · exact h
  · exact h

/-- A verdict of failure is a definite one. -/
theorem definite_of_failed {result : Except Thrown DeliveryResult}
    (h : (deliveryVerdict result).1.outcome = .failed) :
    (Fate.recorded result .failed).Definite := by
  rcases result with e | ⟨⟩ | ⟨⟩ | ⟨beforeWrite, reasonCode, status⟩
  · cases h
  · cases h
  · trivial
  · trivial

/-- What a claim does to the statuses: it takes an effect that nobody has, or leaves all alone. -/
structure ClaimMoves (effectKey : String) (claimed : Bool) (db db' : Db) : Prop where
  elsewhere : ∀ k, k ≠ effectKey → effectStatus k db' = effectStatus k db
  here :
    (claimed = true ∧ effectStatus effectKey db' = some .processing ∧
      (effectStatus effectKey db = none ∨ effectStatus effectKey db = some .failed)) ∨
    (claimed = false ∧ effectStatus effectKey db' = effectStatus effectKey db)

/-- A claim that takes nothing over. -/
theorem claim_moves {now : Instant} {input : ClaimEffectInput} {db : Db}
    (hover : ∀ row, effectRow input.effectKey db = some row → row.status = .processing →
      isStale row.updatedAt now = false) :
    ∃ reply, (Backend.postgres.claimEffect now input db).2 = .ok reply ∧
      ClaimMoves input.effectKey reply.isClaimed db
        (Backend.postgres.claimEffect now input db).1 := by
  obtain ⟨effects, heq, hlookup⟩ := lookup_claimEffect .postgres now input db
  have hstatus : ∀ k, effectStatus k (Backend.postgres.claimEffect now input db).1 =
      (if input.effectKey = k then
        some (EffectRow.afterClaim now input (effectRow input.effectKey db))
      else effectRow k db).map EffectRow.status := by
    intro k
    rw [heq]
    exact congrArg (Option.map EffectRow.status) (hlookup k)
  refine ⟨_, by rw [heq], fun k hk => by rw [hstatus, if_neg (Ne.symm hk)]; rfl, ?_⟩
  rw [hstatus, if_pos rfl]
  unfold effectStatus
  cases hrow : effectRow input.effectKey db with
  | none => exact Or.inl ⟨rfl, rfl, Or.inl rfl⟩
  | some row =>
    simp only [EffectRow.afterClaim, EffectRow.claimReply]
    cases hs : row.status with
    | processing =>
      have hfresh := hover row hrow hs
      exact Or.inr (by simp [Postgres.refuseEffect, hs, hfresh, ClaimEffectReply.isClaimed])
    | failed =>
      exact Or.inl (by simp [Postgres.refuseEffect, hs, ClaimEffectReply.isClaimed,
        EffectRow.reclaim])
    | done | uncertain =>
      exact Or.inr (by simp [Postgres.refuseEffect, hs, ClaimEffectReply.isClaimed])

/-- No effect leaves processing by a claim. -/
theorem ClaimMoves.processing_kept {effectKey k : String} {claimed : Bool} {db db' : Db}
    (h : ClaimMoves effectKey claimed db db') (hk : effectStatus k db = some .processing) :
    effectStatus k db' = some .processing := by
  by_cases hne : k = effectKey
  · subst hne
    rcases h.here with ⟨-, hprocessing, -⟩ | ⟨-, hkept⟩
    · exact hprocessing
    · rw [hkept, hk]
  · rw [h.elsewhere k hne, hk]

/-- No effect becomes failed by a claim. -/
theorem ClaimMoves.open_kept {effectKey k : String} {claimed : Bool} {db db' : Db}
    (h : ClaimMoves effectKey claimed db db')
    (hk : ∃ status, effectStatus k db = some status ∧ status ≠ .failed) :
    ∃ status, effectStatus k db' = some status ∧ status ≠ .failed := by
  by_cases hne : k = effectKey
  · subst hne
    rcases h.here with ⟨-, hprocessing, -⟩ | ⟨-, hkept⟩
    · exact ⟨.processing, hprocessing, by decide⟩
    · rwa [hkept]
  · rwa [h.elsewhere k hne]

section Keeps

variable {fleet : Fleet} {hands : ℕ → Hand} (h : FleetInv fleet hands) {run : ℕ}

include h

/-- A call that leaves the store, the ledger and the effect in hand as they are. -/
theorem FleetInv.keeps_idle {hand' : Hand} (hkey : hand'.key? = (hands run).key?)
    (htells : ∀ attempt ∈ fleet.ledger, hand'.Tells run attempt) :
    KeepsHands run (hands run) hand' fleet.pool.shared fleet.pool.shared fleet.ledger
      fleet.ledger where
  held k hk := h.processing run k (hkey ▸ hk)
  fresh _ hk := Or.inl (hkey ▸ hk)
  others _ hk _ := hk
  open_ := h.open_
  moved _ hattempt := Or.inl hattempt
  tells := htells

/-- An effect that is absent or failed has definite attempts only. -/
theorem FleetInv.definite_of_vacant {k : String}
    (hvacant : effectStatus k fleet.pool.shared = none ∨
      effectStatus k fleet.pool.shared = some .failed)
    {attempt : Attempt} (hattempt : attempt ∈ fleet.ledger) (hkey : attempt.effectKey = k) :
    attempt.fate.Definite := by
  by_contra hnot
  obtain ⟨status, hstatus, hne⟩ := h.open_ attempt hattempt hnot
  rw [hkey] at hstatus
  rcases hvacant with hnone | hfailed
  · rw [hnone] at hstatus
    cases hstatus
  · rw [hfailed] at hstatus
    exact hne (Option.some.inj hstatus).symm

/-- A claim after which the run has nothing in hand: it was refused, or its answer got lost. -/
theorem FleetInv.keeps_unclaimed {effectKey : String} {claimed : Bool} {db' : Db}
    (hmoves : ClaimMoves effectKey claimed fleet.pool.shared db') :
    KeepsHands run .free .free fleet.pool.shared db' fleet.ledger fleet.ledger where
  held k hk := by cases hk
  fresh k hk := by cases hk
  others _ hk _ := hmoves.processing_kept hk
  open_ attempt hattempt hnot := hmoves.open_kept (h.open_ attempt hattempt hnot)
  moved _ hattempt := Or.inl hattempt
  tells _ _ := trivial

/-- A claim that the run gets granted. -/
theorem FleetInv.keeps_claimed {effectKey : String} {db' : Db}
    (hmoves : ClaimMoves effectKey true fleet.pool.shared db') :
    KeepsHands run .free (.claimed effectKey) fleet.pool.shared db' fleet.ledger fleet.ledger := by
  obtain ⟨-, hprocessing, hvacant⟩ | ⟨hnot, -⟩ := hmoves.here
  · refine ⟨fun k hk => ?_, fun k hk => Or.inr ?_, fun k hk _ => hmoves.processing_kept hk,
      fun attempt hattempt hnot => hmoves.open_kept (h.open_ attempt hattempt hnot),
      fun attempt hattempt => Or.inl hattempt,
      fun attempt hattempt hkey => h.definite_of_vacant hvacant hattempt hkey⟩
    · rw [← Option.some.inj hk, hprocessing]
    · rw [← Option.some.inj hk]
      rcases hvacant with hnone | hfailed
      · simp [hnone]
      · simp [hfailed]
  · cases hnot

/-- A claim that takes nothing over, whether its answer arrives or not. -/
theorem FleetInv.keeps_claim {moment : Moment} {input : ClaimEffectInput}
    (hhand : hands run = .free)
    (hover : moment.arrives = true → ∀ row, effectRow input.effectKey fleet.pool.shared = some row →
      row.status = .processing → isStale row.updatedAt moment.now = false) :
    KeepsHands run (hands run)
      (handProtocol.post (hands run) (.claimEffect input)
        (serveHandler moment fleet.pool.shared (.claimEffect input)).2)
      fleet.pool.shared (serveHandler moment fleet.pool.shared (.claimEffect input)).1 fleet.ledger
      fleet.ledger := by
  rw [hhand]
  cases harrives : moment.arrives with
  | false =>
    have hlost : moment.transit = .requestLost := by simpa [Moment.arrives] using harrives
    have hpost : handProtocol.post .free (.claimEffect input)
        (serveHandler moment fleet.pool.shared (.claimEffect input)).2 = .free := by
      simp [serveHandler, hlost, clientAnswer, handProtocol]
    have hdb : (serveHandler moment fleet.pool.shared (.claimEffect input)).1 =
        fleet.pool.shared := by simp [serveHandler, harrives]
    rw [hpost, hdb, ← hhand]
    exact h.keeps_idle rfl (h.tells run)
  | true =>
    obtain ⟨reply, hreply, hmoves⟩ := claim_moves (hover harrives)
    have hdb : (serveHandler moment fleet.pool.shared (.claimEffect input)).1 =
        (Backend.postgres.claimEffect moment.now input fleet.pool.shared).1 := by
      simp [serveHandler, harrives]
    have hanswer : (serveHandler moment fleet.pool.shared (.claimEffect input)).2 =
        clientAnswer moment.transit (.ok reply) := by
      simp [serveHandler, hreply]
    rw [hdb, hanswer]
    cases moment.transit with
    | requestLost | answerLost => exact h.keeps_unclaimed hmoves
    | answered =>
      cases reply with
      | claimed attempts => exact h.keeps_claimed hmoves
      | busy | done | uncertain => exact h.keeps_unclaimed hmoves

/-- The start of a delivery. -/
theorem FleetInv.keeps_start {delivery : Delivery} (hhand : hands run = .claimed delivery.effectKey) :
    KeepsHands run (hands run) (.delivering delivery.effectKey) fleet.pool.shared fleet.pool.shared
      fleet.ledger (fleet.ledger ++ [⟨run, delivery.effectKey, .inFlight⟩]) := by
  have hkey : (hands run).key? = some delivery.effectKey := by rw [hhand]; rfl
  refine ⟨fun k hk => ?_, fun k hk => Or.inl (hkey.trans hk), fun k hk _ => hk, ?_, ?_, ?_⟩
  · exact h.processing run k (hkey.trans hk)
  · intro attempt hattempt hnot
    rcases List.mem_append.mp hattempt with hold | hnew
    · exact h.open_ attempt hold hnot
    · rw [List.mem_singleton.mp hnew]
      exact ⟨.processing, h.processing run _ hkey, by decide⟩
  · intro attempt hattempt
    rcases List.mem_append.mp hattempt with hold | hnew
    · exact Or.inl hold
    · rw [List.mem_singleton.mp hnew]
      exact Or.inr hkey
  · intro attempt hattempt hsame
    rcases List.mem_append.mp hattempt with hold | hnew
    · have htells := h.tells run attempt hold
      rw [hhand] at htells
      exact Or.inl (htells hsame)
    · rw [List.mem_singleton.mp hnew]
      exact Or.inr ⟨rfl, rfl⟩

/-- The end of a delivery. -/
theorem FleetInv.keeps_await {effectKey : String} {result : Except Thrown DeliveryResult}
    (hhand : hands run = .delivering effectKey) :
    KeepsHands run (hands run) (.ended effectKey result) fleet.pool.shared fleet.pool.shared
      fleet.ledger (fleet.ledger.map (Attempt.end run effectKey result)) := by
  have hkey : (hands run).key? = some effectKey := by rw [hhand]; rfl
  refine ⟨fun k hk => ?_, fun k hk => Or.inl (hkey.trans hk), fun k hk _ => hk, ?_, ?_, ?_⟩
  · exact h.processing run k (hkey.trans hk)
  · intro attempt' hattempt' hnot
    obtain ⟨attempt, hattempt, rfl⟩ := List.mem_map.mp hattempt'
    rw [Attempt.end_effectKey]
    refine h.open_ attempt hattempt fun hdefinite => hnot ?_
    rw [Attempt.end_of_definite hdefinite]
    exact hdefinite
  · intro attempt' hattempt'
    obtain ⟨attempt, hattempt, rfl⟩ := List.mem_map.mp hattempt'
    rcases attempt.end_moved run effectKey result with hsame | hmine
    · rw [hsame]
      exact Or.inl hattempt
    · rw [Attempt.end_effectKey, hmine]
      exact Or.inr hkey
  · intro attempt' hattempt' hsame
    obtain ⟨attempt, hattempt, rfl⟩ := List.mem_map.mp hattempt'
    rw [Attempt.end_effectKey] at hsame
    have htells := h.tells run attempt hattempt
    rw [hhand] at htells
    rcases htells hsame with hdefinite | ⟨hrun, hfate⟩
    · rw [Attempt.end_of_definite hdefinite]
      exact Or.inl hdefinite
    · simp [Attempt.end, hfate, hrun, hsame]

/-- A recorded delivery that is not definite has not left its effect failed. -/
theorem FleetInv.not_failed_of_record {effectKey : String} {result : Except Thrown DeliveryResult}
    (hhand : hands run = .ended effectKey result) {attempt : Attempt}
    (hattempt : attempt ∈ fleet.ledger) (hkey : attempt.effectKey = effectKey)
    (hnot : ¬ (attempt.record run effectKey
      (deliveryVerdict result).1.outcome).fate.Definite) :
    (deliveryVerdict result).1.outcome.status ≠ .failed := by
  intro hfailed
  have hverdict : (deliveryVerdict result).1.outcome = .failed := by
    cases houtcome : (deliveryVerdict result).1.outcome with
    | failed => rfl
    | done | uncertain => rw [houtcome] at hfailed; cases hfailed
  have htells := h.tells run attempt hattempt
  rw [hhand] at htells
  apply hnot
  rcases htells hkey with hdefinite | ⟨hrun, hfate⟩
  · exact Attempt.record_definite hdefinite
  · rw [hverdict]
    simp only [Attempt.record, hfate, hrun, hkey, and_self, if_true]
    exact definite_of_failed hverdict

/-- A result that reaches the store: the effect takes the status of the verdict. -/
theorem FleetInv.keeps_recorded {effectKey : String} {result : Except Thrown DeliveryResult}
    (hhand : hands run = .ended effectKey result) {db' : Db}
    (hother : ∀ k, k ≠ effectKey → effectStatus k db' = effectStatus k fleet.pool.shared)
    (hself : effectStatus effectKey db' = some (deliveryVerdict result).1.outcome.status) :
    KeepsHands run (hands run) .free fleet.pool.shared db' fleet.ledger
      (fleet.ledger.map (Attempt.record run effectKey (deliveryVerdict result).1.outcome)) := by
  have hkey : (hands run).key? = some effectKey := by rw [hhand]; rfl
  refine ⟨(fun k hk => by cases hk), (fun k hk => by cases hk), fun k hk hne => ?_, ?_, ?_,
    fun _ _ => trivial⟩
  · rw [hother k fun hsame => hne (by rw [hsame, hkey]), hk]
  · intro attempt' hattempt' hnot
    obtain ⟨attempt, hattempt, rfl⟩ := List.mem_map.mp hattempt'
    rw [Attempt.record_effectKey]
    by_cases hsame : attempt.effectKey = effectKey
    · rw [hsame, hself]
      exact ⟨_, rfl, h.not_failed_of_record hhand hattempt hsame hnot⟩
    · rw [hother _ hsame]
      exact h.open_ attempt hattempt fun hdefinite => hnot (Attempt.record_definite hdefinite)
  · intro attempt' hattempt'
    obtain ⟨attempt, hattempt, rfl⟩ := List.mem_map.mp hattempt'
    rcases attempt.record_moved run effectKey (deliveryVerdict result).1.outcome with hsame | hmine
    · rw [hsame]
      exact Or.inl hattempt
    · rw [Attempt.record_effectKey, hmine]
      exact Or.inr hkey

/-- The record of a delivery, whether it reaches the store or not. -/
theorem FleetInv.keeps_finish {moment : Moment} {effectKey : String}
    {result : Except Thrown DeliveryResult} (hhand : hands run = .ended effectKey result) :
    KeepsHands run (hands run) .free fleet.pool.shared
      (serveHandler moment fleet.pool.shared
        (.finishEffect effectKey (deliveryVerdict result).1)).1
      fleet.ledger
      (if moment.arrives then
        fleet.ledger.map (Attempt.record run effectKey (deliveryVerdict result).1.outcome)
      else fleet.ledger) := by
  cases harrives : moment.arrives with
  | false =>
    have hdb : (serveHandler moment fleet.pool.shared
        (.finishEffect effectKey (deliveryVerdict result).1)).1 = fleet.pool.shared := by
      simp [serveHandler, harrives]
    rw [hdb]
    exact ⟨(fun k hk => by cases hk), (fun k hk => by cases hk), fun k hk _ => hk, h.open_,
      fun attempt hattempt => Or.inl hattempt, fun _ _ => trivial⟩
  | true =>
    obtain ⟨effects, heq, hlookup⟩ := lookup_finishEffect .postgres moment.now effectKey
      (deliveryVerdict result).1 fleet.pool.shared
    have hdb : (serveHandler moment fleet.pool.shared
        (.finishEffect effectKey (deliveryVerdict result).1)).1 = { fleet.pool.shared with effects } := by
      simp [serveHandler, harrives, heq]
    rw [hdb, if_pos rfl]
    refine h.keeps_recorded hhand (fun k hk => ?_) ?_
    · exact congrArg (Option.map EffectRow.status) ((hlookup k).trans (if_neg (Ne.symm hk)))
    · have hkey : (hands run).key? = some effectKey := by rw [hhand]; rfl
      obtain ⟨row, hrow, -⟩ := Option.map_eq_some_iff.mp (h.processing run effectKey hkey)
      refine (congrArg (Option.map EffectRow.status) ((hlookup effectKey).trans (if_pos rfl))).trans ?_
      rw [hrow]
      rfl

/-- The answer of the quota: a granted claim goes on, or ends. -/
theorem FleetInv.keeps_quota {moment : Moment} {input : RateLimitInput}
    (hpre : handProtocol.pre (hands run) (.consumeRateLimit input)) :
    KeepsHands run (hands run)
      (handProtocol.post (hands run) (.consumeRateLimit input)
        (serveHandler moment fleet.pool.shared (.consumeRateLimit input)).2)
      fleet.pool.shared fleet.pool.shared fleet.ledger fleet.ledger := by
  obtain ⟨effectKey, hhand⟩ := hpre
  have hstuck : KeepsHands run (hands run) (.stuck effectKey) fleet.pool.shared fleet.pool.shared
      fleet.ledger fleet.ledger := h.keeps_idle (by rw [hhand]; rfl) fun _ _ => trivial
  have hsame : KeepsHands run (hands run) (hands run) fleet.pool.shared fleet.pool.shared
      fleet.ledger fleet.ledger := h.keeps_idle rfl (h.tells run)
  rw [hhand] at hstuck hsame ⊢
  rcases hreply : moment.world (.consumeRateLimit input) with e | ⟨count⟩ | ⟨count, retryAt⟩
  · simpa only [serveHandler, handProtocol, hreply] using hstuck
  · simpa only [serveHandler, handProtocol, hreply] using hsame
  · simpa only [serveHandler, handProtocol, hreply] using hstuck

/-- The answer of a notification: it has been sent, or the effect stays as it is. -/
theorem FleetInv.keeps_notify {moment : Moment} {summary : CollectionNotification}
    (hpre : handProtocol.pre (hands run) (.notify summary)) :
    KeepsHands run (hands run)
      (handProtocol.post (hands run) (.notify summary)
        (serveHandler moment fleet.pool.shared (.notify summary)).2)
      fleet.pool.shared fleet.pool.shared fleet.ledger fleet.ledger := by
  obtain ⟨effectKey, hhand⟩ := hpre
  have hstuck : KeepsHands run (hands run) (.stuck effectKey) fleet.pool.shared fleet.pool.shared
      fleet.ledger fleet.ledger := h.keeps_idle (by rw [hhand]; rfl) fun _ _ => trivial
  have hended : KeepsHands run (hands run) (.ended effectKey (.ok .ok)) fleet.pool.shared
      fleet.pool.shared fleet.ledger fleet.ledger := by
    refine h.keeps_idle (by rw [hhand]; rfl) fun attempt hattempt hkey => Or.inl ?_
    have htells := h.tells run attempt hattempt
    rw [hhand] at htells
    exact htells hkey
  rw [hhand] at hstuck hended ⊢
  rcases hreply : moment.world (.notify summary) with e | ⟨⟩
  · simpa only [serveHandler, handProtocol, hreply] using hstuck
  · simpa only [serveHandler, handProtocol, hreply] using hended

end Keeps

/-! ## Runs of a fleet -/

/-- Every step that takes nothing over keeps the invariant. -/
theorem FleetInv.next {env : Env} {fleet : Fleet} (h : ∃ hands, FleetInv fleet hands)
    {step : FleetStep} (hstep : ¬ TakesOver fleet step) :
    ∃ hands, FleetInv ((fleetMachine env).next fleet step) hands := by
  obtain ⟨hands, h⟩ := h
  cases step with
  -- a new run has claimed nothing yet
  | start options input =>
    refine ⟨Function.update hands fleet.started .free, h.advance
      (h.governed.start (handle_follows env options input)) ?_⟩
    exact ⟨(fun k hk => by cases hk), (fun k hk => by cases hk), fun k hk _ => hk, h.open_,
      fun attempt hattempt => Or.inl hattempt, fun _ _ => trivial⟩
  -- a run that is gone keeps what its hands held
  | crash run => exact ⟨hands, ⟨h.governed.crash run, h.processing, h.holder, h.open_, h.tells⟩⟩
  | call run moment =>
    by_cases hcall : ∃ c k, fleet.pool.procs run = some (.call c k)
    · obtain ⟨c, k, hcall⟩ := hcall
      have hnext : (fleetMachine env).next fleet (.call run moment) =
          { fleet with
            pool := fleet.pool.advance serveHandler run moment
            ledger := nextLedger fleet.ledger run moment.arrives c
              (serveHandler moment fleet.pool.shared c).2 } := by
        simp only [Machine.next, fleetMachine, hcall]
      obtain ⟨hpre, hgoverned⟩ := h.governed.advance serveHandler hcall moment trivial
      refine ⟨_, h.advance (by rw [hnext]; exact hgoverned) ?_⟩
      rw [hnext]
      show KeepsHands run (hands run) _ fleet.pool.shared (fleet.pool.advance serveHandler run moment).shared
        fleet.ledger _
      rw [Pool.advance_call hcall]
      cases c with
      | claimEffect input =>
        refine h.keeps_claim hpre fun harrives row hrow hstatus => ?_
        -- a claim of a row in processing would be the take-over that is set aside
        by_contra hstale
        refine hstep ⟨harrives, ?_⟩
        simpa [Fleet.makes, hcall, Prog.call?, claimsOverdue, hrow, hstatus] using hstale
      | finishEffect effectKey finish =>
        obtain ⟨result, hhand, rfl⟩ := hpre
        exact h.keeps_finish hhand
      | startDelivery delivery => exact h.keeps_start hpre
      | awaitDelivery delivery => exact h.keeps_await hpre
      | consumeRateLimit input => exact h.keeps_quota hpre
      | notify summary => exact h.keeps_notify hpre
      | now | randomUuid | collect | afterCommit | publishJobs | putState | putLoginSession
      | consumeRateLimits =>
        exact h.keeps_idle (by cases hands run <;> rfl) fun attempt hattempt => by
          have htells := h.tells run attempt hattempt
          cases hhand : hands run <;> rw [hhand] at htells <;> exact htells
    · have hnext : (fleetMachine env).next fleet (.call run moment) = fleet := by
        push Not at hcall
        simp only [Machine.next, fleetMachine]
        split
        · next c k hc => exact absurd hc (hcall c k)
        · rfl
        · rfl
      rw [hnext]
      exact ⟨hands, h⟩

theorem fleetInv_on (db : Db) : ∃ hands, FleetInv (Fleet.on db) hands :=
  ⟨fun _ => .free, by
    refine ⟨(fun _ _ h => by cases h), (fun _ _ h => by cases h), (fun _ _ _ h => by cases h), ?_, ?_⟩
    · simp [Fleet.on]
    · simp [Fleet.on]⟩

/--
**While no claim takes over an effect in processing, a delivery starts only once every earlier one of
its effect has ended with the quota, or with a failure that is recorded.** This is for any runs of
the handler, on any jobs, at any times, with crashes and with requests and answers that get lost.
-/
theorem delivers_once {env : Env} {db : Db} {steps : List FleetStep}
    (h : (fleetMachine env).Admits (fun fleet step => ¬ TakesOver fleet step) (Fleet.on db) steps) :
    ∀ before step after delivery, steps = before ++ step :: after →
      ((fleetMachine env).run (Fleet.on db) before).makes step = some (.startDelivery delivery) →
      ∀ attempt ∈ ((fleetMachine env).run (Fleet.on db) before).ledger,
        attempt.effectKey = delivery.effectKey → attempt.fate.Definite := by
  rintro before step after delivery rfl hmakes attempt hattempt hkey
  obtain ⟨hands, hinv⟩ := Machine.run_invariant (I := fun fleet => ∃ hands, FleetInv fleet hands)
    (fun _ _ hinv hstep => FleetInv.next hinv hstep) (fleetInv_on db) h.left
  cases step with
  | start options input => cases hmakes
  | crash run => cases hmakes
  | call run moment =>
    obtain ⟨p, hp, hcall⟩ := Option.bind_eq_some_iff.mp hmakes
    cases p with
    | ret a => cases hcall
    | call c k =>
      obtain rfl := Option.some.inj hcall
      have hpre : hands run = .claimed delivery.effectKey := (hinv.governed run _ hp).1
      have htells := hinv.tells run attempt hattempt
      rw [hpre] at htells
      exact htells hkey

/-! ## A delivery that is overtaken -/

namespace Overtaken

open TextToFlomo (options input current delivery)

/-- A moment at which everything is granted. -/
def granting (now : Instant) : Moment where
  now
  transit := .answered
  world := grantAll now Sample.firstId

/-- A run claims its effect, asks for its limits and starts the delivery. -/
def firstRun : List FleetStep :=
  .start options input :: List.replicate 5 (.call 0 (granting current))

/-- The destination has no quota left. -/
def exhausted : Moment where
  now := current
  transit := .answered
  world
    | .awaitDelivery _ => .ok .quota
    | c => grantAll current Sample.firstId c

/-- The first delivery ends with the quota, and the job is handled again. -/
def untilRetry : List FleetStep :=
  firstRun ++ .call 0 exhausted :: .call 0 (granting current) :: .start options input ::
    List.replicate 4 (.call 1 (granting (current + 60000)))

theorem untilRetry_admitted : (fleetMachine Sample.env).Admits
    (fun fleet step => ¬ TakesOver fleet step) (Fleet.on ∅)
    (untilRetry ++ [.call 1 (granting (current + 60000))]) := by
  decide +kernel

theorem delivers_once_retried :
    ((fleetMachine Sample.env).run (Fleet.on ∅) untilRetry).ledger ≠ [] ∧
      ∀ attempt ∈ ((fleetMachine Sample.env).run (Fleet.on ∅) untilRetry).ledger,
        attempt.effectKey = delivery.effectKey → attempt.fate.Definite :=
  ⟨by decide +kernel, delivers_once untilRetry_admitted untilRetry _ [] delivery rfl
    (by decide +kernel)⟩

/-- The worker stops while it delivers, and the job is handled again eleven minutes later. -/
def untilSecond : List FleetStep :=
  firstRun ++ .crash 0 :: .start options input ::
    List.replicate 4 (.call 1 (granting (current + 660000)))

theorem delivers_twice :
    ¬ ∀ before step after delivery, untilSecond ++ [.call 1 (granting (current + 660000))] =
        before ++ step :: after →
      ((fleetMachine Sample.env).run (Fleet.on ∅) before).makes step =
        some (.startDelivery delivery) →
      ∀ attempt ∈ ((fleetMachine Sample.env).run (Fleet.on ∅) before).ledger,
        attempt.effectKey = delivery.effectKey → attempt.fate.Definite := by
  intro h
  have hdefinite := h untilSecond (.call 1 (granting (current + 660000))) [] delivery rfl
    (by decide +kernel) ⟨0, "text:1:flomo", .inFlight⟩ (by decide +kernel) rfl
  exact hdefinite

end Overtaken

end InboxServer
