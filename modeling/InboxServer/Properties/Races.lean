import InboxServer.Properties.Effects
import InboxServer.Properties.Jobs
import InboxServer.Properties.Sample

/-!
# Claims that race on D1

A D1 call reads, decides and writes in separate steps, and its `UPDATE` is not guarded by what it
has read. Any number of claims interleave here, step by step.

* `claims_exclusive` — while nobody reads a row that another claim has found claimable and is about
  to take, at most one claim of it succeeds; the `INSERT` of a first claim needs no such care
* `failed_row_claimed_twice` — two claims that both read before either writes both succeed
-/

namespace InboxServer.D1

open Infra

/-! ## The race -/

/-- What a claim is a claim of. -/
inductive Target where
  | job (dedupeKey : String)
  | effect (effectKey : String)
  deriving DecidableEq

inductive ClaimCall where
  | job (iv : Bytes) (input : Json)
  | effect (input : ClaimEffectInput)

def ClaimCall.target (env : Env) : ClaimCall → Option Target
  | .job _ input => (parseQueueJob env.zod input).map fun job => .job job.dedupeKey
  | .effect input => some (.effect input.effectKey)

/-- The target of the call at a place, if there is a call with a target. -/
def targetAt (env : Env) (calls : ℕ → Option ClaimCall) (i : ℕ) : Option Target :=
  (calls i).bind (ClaimCall.target env)

/-- The call, ending with whether it returned `claimed`. -/
def ClaimCall.program (env : Env) : ClaimCall → Prog Step Step.Answer Bool
  | .job iv input => D1.claimJob env iv input >>= fun reply => .ret (JobReply.claim reply).isClaimed
  | .effect input => D1.claimEffect input >>= fun reply => .ret (EffectReply.claim reply).isClaimed

instance (now : Instant) (row : JobRow) : Decidable (row.Claimable now) :=
  decidable_of_iff (row.status.isTerminal = false ∧
      (row.status = .deferred → row.deferredAfter now = false) ∧
      (row.status = .processing → isStale row.updatedAt now = true))
    ⟨fun h => ⟨h.1, h.2.1, h.2.2⟩, fun h => ⟨h.1, h.2, h.3⟩⟩

/-- A claim may take the effect: it failed, or nobody has finished it for ten minutes. -/
def EffectRow.Claimable (now : Instant) (row : EffectRow) : Prop :=
  row.status = .failed ∨ (row.status = .processing ∧ isStale row.updatedAt now = true)

instance (now : Instant) (row : EffectRow) : Decidable (EffectRow.Claimable now row) :=
  inferInstanceAs (Decidable (_ ∨ _))

/-- What a claim finds: no row, one that it may take, or another. -/
inductive Slot where
  | absent | claimable | taken
  deriving DecidableEq

def Slot.ofJob (now : Instant) : Option JobRow → Slot
  | none => absent
  | some row => if row.Claimable now then claimable else taken

def Slot.ofEffect (now : Instant) : Option EffectRow → Slot
  | none => absent
  | some row => if EffectRow.Claimable now row then claimable else taken

/-- The slot of a target, at an instant. -/
def slot (now : Instant) (db : Db) : Target → Slot
  | .job dedupeKey => .ofJob now (jobRow dedupeKey db)
  | .effect effectKey => .ofEffect now (effectRow effectKey db)

/-- How far a call has come: what it has read, and whether its write succeeded. -/
inductive Phase where
  | begun
  | saw (slot : Slot)
  | wrote (done : Bool)
  deriving DecidableEq

/-- A slot counts as claimable when it is so by `t₁`, the end of the race. -/
def Phase.next (t₁ : Instant) (phase : Phase) : (c : Step) → c.Answer → Phase
  | .selectJob _, row => .saw (.ofJob t₁ row)
  | .selectEffect _, row => .saw (.ofEffect t₁ row)
  | .batch _, done => .wrote done
  | .now, _ | .selectJobById _, _ | .selectEnvelope _, _ | .selectSyncJob _, _ => phase

/-- Claims that run on one database, with how far each has come. -/
structure Race where
  pool : Pool ℕ Db Step Step.Answer Bool
  phases : ℕ → Phase

namespace Race

/-- The race before its first step. -/
def start (env : Env) (db : Db) (calls : ℕ → Option ClaimCall) : Race where
  pool := { shared := db, procs := fun i => (calls i).map (ClaimCall.program env) }
  phases _ := .begun

/-- The call takes its next step, at an instant. -/
def step (t₁ : Instant) (race : Race) (s : ℕ × Instant) : Race where
  pool := race.pool.advance serve s.1 s.2
  phases :=
    match race.pool.procs s.1 with
    | some (.call c _) =>
      Function.update race.phases s.1
        ((race.phases s.1).next t₁ c (serve s.2 race.pool.shared c).2)
    | some (.ret _) | none => race.phases

/-- The call goes on, and has read a slot that it may take. -/
def Standing (race : Race) (i : ℕ) : Prop :=
  race.phases i = .saw .claimable ∧ ∃ c k, race.pool.procs i = some (.call c k)

/-- A call that is at its read reads alone: no other claim of its target stands there. -/
def ReadsAlone (env : Env) (calls : ℕ → Option ClaimCall) (race : Race) (i : ℕ) : Prop :=
  race.phases i = .begun → ∀ j ≠ i, targetAt env calls j = targetAt env calls i →
    ¬ race.Standing j

/-- The call has returned `claimed`. -/
def claimed (race : Race) (i : ℕ) : Bool :=
  match race.pool.procs i with
  | some (.ret claimed) => claimed
  | some (.call ..) | none => false

theorem claimed_iff {race : Race} {i : ℕ} :
    race.claimed i = true ↔ race.pool.procs i = some (.ret true) := by
  unfold claimed
  split
  · next claimed h => simp [h]
  · next h => simp [h]
  · next h => simp [h]

/-- At most one of the claims of each target has returned `claimed`. -/
def OneWinner (env : Env) (calls : ℕ → Option ClaimCall) (race : Race) : Prop :=
  ∀ i j target, targetAt env calls i = some target → targetAt env calls j = some target →
    race.claimed i = true → race.claimed j = true → i = j

end Race

/-- The race as a machine; its inputs say which call takes its next step, and when. -/
def raceMachine (t₁ : Instant) : Machine Race (ℕ × Instant) Unit where
  step race s := (race.step t₁ s, ())

/-! ## What a claim writes -/

/-- The batches of a claim of the target, by the slot that it has read. -/
inductive Takes (t₀ : Instant) : Target → Slot → List Write → Prop
  | insertJob {k row} (key : row.dedupeKey = k) (status : row.status = .processing)
      (at_ : t₀ ≤ row.updatedAt) : Takes t₀ (.job k) .absent [.insertJob row]
  | insertArticle {k row envelope} (key : row.dedupeKey = k) (status : row.status = .processing)
      (at_ : t₀ ≤ row.updatedAt) :
      Takes t₀ (.job k) .absent [.insertJob row, .insertEnvelope envelope]
  | reclaimJob {k attempts jobId now} (at_ : t₀ ≤ now) :
      Takes t₀ (.job k) .claimable [.reclaimJob attempts jobId now k]
  | insertEffect {k row} (key : row.effectKey = k) (status : row.status = .processing)
      (at_ : t₀ ≤ row.updatedAt) : Takes t₀ (.effect k) .absent [.insertEffect row]
  | reclaimEffect {k attempts now} (at_ : t₀ ≤ now) :
      Takes t₀ (.effect k) .claimable [.reclaimEffect attempts now k]

/-- A row that was claimed within the race cannot be claimed again before its end. -/
theorem isStale_eq_false {t₀ t₁ updatedAt : Instant} (hwindow : t₁ < t₀ + 600000)
    (h : t₀ ≤ updatedAt) : isStale updatedAt t₁ = false := by
  simp only [isStale, decide_eq_false_iff_not, not_lt]
  linarith

/-- A job that is taken within the window is taken till its end. -/
theorem Slot.ofJob_taken {t₀ t₁ : Instant} (hwindow : t₁ < t₀ + 600000) {row : JobRow}
    (hs : row.status = .processing) (h : t₀ ≤ row.updatedAt) :
    Slot.ofJob t₁ (some row) = .taken := by
  have hnot : ¬ row.Claimable t₁ := by
    intro hc
    have hstale := hc.free hs
    rw [isStale_eq_false hwindow h] at hstale
    exact Bool.noConfusion hstale
  exact if_neg hnot

theorem Slot.ofEffect_taken {t₀ t₁ : Instant} (hwindow : t₁ < t₀ + 600000) {row : EffectRow}
    (hs : row.status = .processing) (h : t₀ ≤ row.updatedAt) :
    Slot.ofEffect t₁ (some row) = .taken := by
  have hnot : ¬ EffectRow.Claimable t₁ row := by
    rintro (hf | ⟨-, hstale⟩)
    · rw [hs] at hf; cases hf
    · rw [isStale_eq_false hwindow h] at hstale
      exact Bool.noConfusion hstale
  exact if_neg hnot

/-- What the batch of a claim does to the slots, where it succeeds. -/
structure Took (t₁ : Instant) (target : Target) (s : Slot) (db db' : Db) : Prop where
  /-- An `INSERT` finds no row; an `UPDATE` of no row leaves none. -/
  found : s = .absent → slot t₁ db target = .absent
  taken : s = .absent ∨ slot t₁ db target ≠ .absent → slot t₁ db' target = .taken
  others : ∀ other, other ≠ target → slot t₁ db' other = slot t₁ db other

/-- The insert of a first claim takes the job, which had no row. -/
theorem took_insertJob {t₀ t₁ : Instant} (hwindow : t₁ < t₀ + 600000) {db : Db} {row : JobRow}
    (hs : row.status = .processing) (ht : t₀ ≤ row.updatedAt) {jobs : Table JobRow}
    (hins : db.jobs.insert? row = some jobs) (envelopes : Table EnvelopeRow) :
    Took t₁ (.job row.dedupeKey) .absent db { db with jobs, envelopes } := by
  have hlookup := Table.lookup_insert? JobRow.isKey_dedupeKey hins
  constructor
  · intro _
    have hnone : jobRow row.dedupeKey db = none := by
      refine Table.lookup_eq_none.mpr fun r hr hkey => ?_
      have hfresh := (Table.insert?_eq_some hins).2 r hr
      rw [JobRow.isKey_dedupeKey r row hkey] at hfresh
      exact Bool.noConfusion hfresh
    show Slot.ofJob t₁ (jobRow row.dedupeKey db) = .absent
    rw [hnone]
    rfl
  · intro _
    show Slot.ofJob t₁ (jobs.lookup JobRow.dedupeKey row.dedupeKey) = .taken
    rw [hlookup, if_pos rfl]
    exact Slot.ofJob_taken hwindow hs ht
  · rintro (k | k) hne
    · show Slot.ofJob t₁ (jobs.lookup JobRow.dedupeKey k) = _
      rw [hlookup, if_neg (fun h => hne (by rw [h]))]
      rfl
    · rfl

/-- The update of a claim takes the job whose row it finds, and touches no other. -/
theorem took_reclaimJob {t₀ t₁ now : Instant} (hwindow : t₁ < t₀ + 600000) (hnow : t₀ ≤ now)
    {k jobId : String} {attempts : Nat} {db : Db} {jobs : Table JobRow}
    (hup : db.jobs.update? (fun r => r.dedupeKey = k) (JobRow.reclaim attempts jobId now) =
      some jobs) :
    Took t₁ (.job k) .claimable db { db with jobs } := by
  have hkeeps : ∀ r : JobRow, (r.reclaim attempts jobId now).dedupeKey = r.dedupeKey :=
    fun _ => rfl
  have hlookup := Table.lookup_update? hup hkeeps
  refine ⟨(fun h => by cases h), fun h => ?_, ?_⟩
  · have hsome : slot t₁ db (.job k) ≠ .absent := h.resolve_left (by decide)
    show Slot.ofJob t₁ (jobs.lookup JobRow.dedupeKey k) = .taken
    rw [hlookup]
    cases hr : db.jobs.lookup JobRow.dedupeKey k with
    | none => exact absurd (congrArg (Slot.ofJob t₁) hr) hsome
    | some row =>
      rw [Option.map_some, if_pos (decide_eq_true (Table.lookup_key hr))]
      exact Slot.ofJob_taken hwindow rfl hnow
  · rintro (k' | k') hne
    · show Slot.ofJob t₁ (jobs.lookup JobRow.dedupeKey k') = Slot.ofJob t₁ (jobRow k' db)
      rw [hlookup]
      cases hr : db.jobs.lookup JobRow.dedupeKey k' with
      | none => rw [jobRow, hr]; rfl
      | some row =>
        have hother : row.dedupeKey ≠ k := by
          rw [Table.lookup_key hr]
          exact fun h => hne (by rw [h])
        rw [Option.map_some, if_neg (by simpa using hother), jobRow, hr]
    · rfl

/-- The insert of a first claim takes the effect, which had no row. -/
theorem took_insertEffect {t₀ t₁ : Instant} (hwindow : t₁ < t₀ + 600000) {db : Db} {row : EffectRow}
    (hs : row.status = .processing) (ht : t₀ ≤ row.updatedAt) {effects : Table EffectRow}
    (hins : db.effects.insert? row = some effects) :
    Took t₁ (.effect row.effectKey) .absent db { db with effects } := by
  have hlookup := Table.lookup_insert? EffectRow.isKey_effectKey hins
  refine ⟨fun _ => ?_, fun _ => ?_, ?_⟩
  · have hnone : effectRow row.effectKey db = none := by
      refine Table.lookup_eq_none.mpr fun r hr hkey => ?_
      have hfresh := (Table.insert?_eq_some hins).2 r hr
      rw [EffectRow.isKey_effectKey r row hkey] at hfresh
      exact Bool.noConfusion hfresh
    show Slot.ofEffect t₁ (effectRow row.effectKey db) = .absent
    rw [hnone]
    rfl
  · show Slot.ofEffect t₁ (effects.lookup EffectRow.effectKey row.effectKey) = .taken
    rw [hlookup, if_pos rfl]
    exact Slot.ofEffect_taken hwindow hs ht
  · rintro (k' | k') hne
    · rfl
    · show Slot.ofEffect t₁ (effects.lookup EffectRow.effectKey k') = _
      rw [hlookup, if_neg (fun h => hne (by rw [h]))]
      rfl

/-- The update of a claim takes the effect whose row it finds, and touches no other. -/
theorem took_reclaimEffect {t₀ t₁ now : Instant} (hwindow : t₁ < t₀ + 600000) (hnow : t₀ ≤ now)
    (k : String) (attempts : Nat) (db : Db) :
    Took t₁ (.effect k) .claimable db { db with
      effects := db.effects.update (fun r => r.effectKey = k) (EffectRow.reclaim attempts now) } := by
  have hlookup := Table.lookup_update_key (t := db.effects)
    (EffectRow.reclaim_effectKey attempts now) k
  refine ⟨(fun h => by cases h), fun h => ?_, ?_⟩
  · have hsome : slot t₁ db (.effect k) ≠ .absent := h.resolve_left (by decide)
    show Slot.ofEffect t₁ (Table.lookup _ EffectRow.effectKey k) = .taken
    rw [hlookup, if_pos rfl]
    cases hr : db.effects.lookup EffectRow.effectKey k with
    | none => exact absurd (congrArg (Slot.ofEffect t₁) hr) hsome
    | some row => exact Slot.ofEffect_taken hwindow rfl hnow
  · rintro (k' | k') hne
    · rfl
    · show Slot.ofEffect t₁ (Table.lookup _ EffectRow.effectKey k') = _
      rw [hlookup, if_neg (fun h => hne (by rw [h]))]
      rfl

/-- A batch that a claim may write takes its target, where it succeeds. -/
theorem Takes.took {t₀ t₁ : Instant} (hwindow : t₁ < t₀ + 600000) {target : Target} {s : Slot}
    {writes : List Write} (h : Takes t₀ target s writes) {db db' : Db}
    (hw : writes.foldlM Write.apply db = some db') : Took t₁ target s db db' := by
  cases h with
  | @insertJob k row hk hs ht =>
    subst hk
    simp only [List.foldlM_cons, List.foldlM_nil, Write.apply] at hw
    obtain ⟨db₁, hwrite, heq⟩ := Option.bind_eq_some_iff.mp hw
    obtain ⟨jobs, hins, rfl⟩ := Option.map_eq_some_iff.mp hwrite
    obtain rfl := Option.some.inj heq
    exact took_insertJob hwindow hs ht hins db.envelopes
  | @insertArticle k row envelope hk hs ht =>
    subst hk
    rw [D1.insertArticle, Option.bind_eq_some_iff] at hw
    obtain ⟨jobs, hins, hw⟩ := hw
    obtain ⟨envelopes, -, rfl⟩ := Option.map_eq_some_iff.mp hw
    exact took_insertJob hwindow hs ht hins envelopes
  | @reclaimJob k attempts jobId now ht =>
    simp only [List.foldlM_cons, List.foldlM_nil, Write.apply] at hw
    obtain ⟨db₁, hwrite, heq⟩ := Option.bind_eq_some_iff.mp hw
    obtain ⟨jobs, hup, rfl⟩ := Option.map_eq_some_iff.mp hwrite
    obtain rfl := Option.some.inj heq
    exact took_reclaimJob hwindow ht hup
  | @insertEffect k row hk hs ht =>
    subst hk
    simp only [List.foldlM_cons, List.foldlM_nil, Write.apply] at hw
    obtain ⟨db₁, hwrite, heq⟩ := Option.bind_eq_some_iff.mp hw
    obtain ⟨effects, hins, rfl⟩ := Option.map_eq_some_iff.mp hwrite
    obtain rfl := Option.some.inj heq
    exact took_insertEffect hwindow hs ht hins
  | @reclaimEffect k attempts now ht =>
    simp only [List.foldlM_cons, List.foldlM_nil, Write.apply] at hw
    obtain rfl := Option.some.inj hw
    exact took_reclaimEffect hwindow ht k attempts db

/-! ## The protocol of a claim -/

/-- The step that reads the row of a target. -/
def Target.read : Target → Step
  | .job dedupeKey => .selectJob dedupeKey
  | .effect effectKey => .selectEffect effectKey

/-- A claim reads its row, looks at the clock, writes once, and makes no other step. -/
def Permits (t₀ : Instant) (g : Option Target × Phase) (c : Step) : Prop :=
  ∃ target, g.1 = some target ∧
    match g.2 with
    | .begun => c = target.read
    | .saw s => c = .now ∨ ∃ writes, c = .batch writes ∧ Takes t₀ target s writes
    | .wrote _ => False

/-- The clock stays within the race. -/
def ClockWithin (t₀ t₁ : Instant) : (c : Step) → c.Answer → Prop
  | .now, now => t₀ ≤ now ∧ now ≤ t₁
  | .selectJob _, _ | .selectJobById _, _ | .selectEnvelope _, _ | .selectEffect _, _
  | .selectSyncJob _, _ | .batch _, _ => True

def claimProtocol (t₀ t₁ : Instant) : Protocol Step Step.Answer (Option Target × Phase) where
  pre := Permits t₀
  rely := ClockWithin t₀ t₁
  post g c answer := (g.1, g.2.next t₁ c answer)

/-- A call that returns `claimed` has written. -/
def ClaimedByWriting (g : Option Target × Phase) (claimed : Bool) : Prop :=
  claimed = true → g.2 = .wrote true

section Follows

variable {t₀ t₁ : Instant}

theorem follows_now {target : Target} {s : Slot} {k : Instant → Prog Step Step.Answer Bool}
    (h : ∀ now, t₀ ≤ now → now ≤ t₁ →
      (k now).Follows (claimProtocol t₀ t₁) ClaimedByWriting (some target, .saw s)) :
    Prog.Follows (claimProtocol t₀ t₁) ClaimedByWriting (some target, .saw s) (.call .now k) :=
  ⟨⟨target, rfl, Or.inl rfl⟩, fun now hnow => h now hnow.1 hnow.2⟩

/-- The last step of a claim. -/
theorem follows_batch {α : Type} {target : Target} {s : Slot} {writes : List Write}
    (h : Takes t₀ target s writes) (reply : α) (f : Except ErrorText α → Bool)
    (hf : ∀ text, f (.error text) = false) :
    Prog.Follows (claimProtocol t₀ t₁) ClaimedByWriting (some target, .saw s)
      (Call.commit writes reply >>= fun r => .ret (f r)) := by
  refine ⟨⟨target, rfl, Or.inr ⟨writes, rfl, h⟩⟩, fun done _ hclaimed => ?_⟩
  cases done with
  | true => rfl
  | false =>
    rw [show f (if false = true then _ else _) = f (.error duplicateKey) from rfl, hf] at hclaimed
    cases hclaimed

/-- A call that ends without a claim. -/
theorem follows_unclaimed {g : Option Target × Phase} {claimed : Bool} (h : claimed = false) :
    Prog.Follows (claimProtocol t₀ t₁) ClaimedByWriting g (.ret claimed) := by
  intro hclaimed
  rw [h] at hclaimed
  cases hclaimed

/-- A claim that is later due, or later stale, stays so. -/
theorem claimable_later {row : JobRow} {now : Instant} (h : row.Claimable now) (hle : now ≤ t₁) :
    row.Claimable t₁ where
  live := h.live
  due hs := by
    have hdue := h.due hs
    unfold JobRow.deferredAfter at hdue ⊢
    split at hdue
    · simp only [decide_eq_false_iff_not, not_lt] at hdue ⊢
      exact le_trans hdue hle
    · rfl
  free hs := by
    have hfree := h.free hs
    simp only [isStale, decide_eq_true_eq] at hfree ⊢
    linarith

/-- A call that takes a job over wins by its write. -/
theorem follows_takeJob {job : QueueJob} {row : JobRow}
    (h : ∀ now, t₀ ≤ now → now ≤ t₁ → row.Claimable t₁) :
    Prog.Follows (claimProtocol t₀ t₁) ClaimedByWriting
      (some (.job job.dedupeKey), .saw (.ofJob t₁ (some row)))
      (takeJob job row >>= fun reply => .ret (JobReply.claim reply).isClaimed) := by
  refine follows_now fun now h₀ h₁ => ?_
  have hslot : Slot.ofJob t₁ (some row) = .claimable := if_pos (h now h₀ h₁)
  rw [hslot]
  exact follows_batch (.reclaimJob h₀) _ (JobReply.isClaimed ∘ .claim) fun _ => rfl

theorem follows_insertJob (env : Env) (iv : Bytes) (job : QueueJob) :
    Prog.Follows (claimProtocol t₀ t₁) ClaimedByWriting (some (.job job.dedupeKey), .saw .absent)
      (insertJob env iv job >>= fun reply => .ret (JobReply.claim reply).isClaimed) := by
  refine follows_now fun now h₀ h₁ => ?_
  dsimp only
  by_cases harticle : job.itemKind = some .article
  · rw [if_pos harticle]
    cases env.encryptJson iv job.toJson with
    | none => exact follows_unclaimed rfl
    | some ciphertext =>
      have htakes : Takes t₀ (.job job.dedupeKey) .absent [.insertJob (JobRow.claimed job now),
          .insertEnvelope (EnvelopeRow.active env job ciphertext now)] :=
        .insertArticle rfl rfl h₀
      exact follows_batch htakes _ (JobReply.isClaimed ∘ .claim) fun _ => rfl
  · rw [if_neg harticle]
    have htakes : Takes t₀ (.job job.dedupeKey) .absent [.insertJob (JobRow.claimed job now)] :=
      .insertJob rfl rfl h₀
    exact follows_batch htakes _ (JobReply.isClaimed ∘ .claim) fun _ => rfl

/-- A claim of a job reads it, and takes it if it saw it claimable. -/
theorem follows_claimJob (env : Env) (iv : Bytes) (input : Json) :
    Prog.Follows (claimProtocol t₀ t₁) ClaimedByWriting
      ((ClaimCall.job iv input).target env, .begun) ((ClaimCall.job iv input).program env) := by
  unfold ClaimCall.target ClaimCall.program claimJob
  dsimp only
  cases parseQueueJob env.zod input with
  | none => exact follows_unclaimed rfl
  | some job =>
    refine ⟨⟨.job job.dedupeKey, rfl, rfl⟩, fun existing _ => ?_⟩
    show Prog.Follows (claimProtocol t₀ t₁) ClaimedByWriting
      (some (.job job.dedupeKey), .saw (.ofJob t₁ existing)) _
    cases existing with
    | none => exact follows_insertJob env iv job
    | some row =>
      dsimp only
      cases hs : row.status with
      | done | dead | uncertain => exact follows_unclaimed rfl
      | failed =>
        exact follows_takeJob fun _ _ _ => ⟨by rw [hs]; rfl, by simp [hs], by simp [hs]⟩
      | deferred =>
        dsimp only
        cases hd : row.deferredUntil with
        | none =>
          exact follows_takeJob fun _ _ _ =>
            ⟨by rw [hs]; rfl, fun _ => by simp [JobRow.deferredAfter, hd], by simp [hs]⟩
        | some date =>
          refine follows_now fun current h₀ h₁ => ?_
          dsimp only
          by_cases hdue : row.deferredAfter current = true
          · rw [if_pos hdue]
            exact follows_unclaimed rfl
          · rw [if_neg hdue]
            have hnow : row.Claimable current :=
              ⟨by rw [hs]; rfl, fun _ => by simpa using hdue, by simp [hs]⟩
            exact follows_takeJob fun _ _ _ => claimable_later hnow h₁
      | processing =>
        refine follows_now fun current h₀ h₁ => ?_
        dsimp only
        by_cases hstale : isStale row.updatedAt current = true
        · rw [if_pos hstale]
          have hnow : row.Claimable current := ⟨by rw [hs]; rfl, by simp [hs], fun _ => hstale⟩
          exact follows_takeJob fun _ _ _ => claimable_later hnow h₁
        · rw [if_neg hstale]
          exact follows_unclaimed rfl

/-- A call that takes an effect over wins by its write. -/
theorem follows_takeEffect {effectKey : String} {row : EffectRow}
    (h : EffectRow.Claimable t₁ row) :
    Prog.Follows (claimProtocol t₀ t₁) ClaimedByWriting
      (some (.effect effectKey), .saw (.ofEffect t₁ (some row)))
      (takeEffect effectKey row >>= fun reply => .ret (EffectReply.claim reply).isClaimed) := by
  refine follows_now fun now h₀ _ => ?_
  have hslot : Slot.ofEffect t₁ (some row) = .claimable := if_pos h
  rw [hslot]
  exact follows_batch (.reclaimEffect h₀) _ (EffectReply.isClaimed ∘ .claim) fun _ => rfl

/-- A claim of an effect reads it, and takes it if it saw it claimable. -/
theorem follows_claimEffect (env : Env) (input : ClaimEffectInput) :
    Prog.Follows (claimProtocol t₀ t₁) ClaimedByWriting
      ((ClaimCall.effect input).target env, .begun) ((ClaimCall.effect input).program env) := by
  refine ⟨⟨.effect input.effectKey, rfl, rfl⟩, fun existing _ => ?_⟩
  show Prog.Follows (claimProtocol t₀ t₁) ClaimedByWriting
    (some (.effect input.effectKey), .saw (.ofEffect t₁ existing)) _
  cases existing with
  | none =>
    refine follows_now fun now h₀ _ => ?_
    have htakes : Takes t₀ (.effect input.effectKey) .absent
        [.insertEffect (EffectRow.claimed input now)] := .insertEffect rfl rfl h₀
    exact follows_batch htakes _ (EffectReply.isClaimed ∘ .claim) fun _ => rfl
  | some row =>
    dsimp only
    cases hs : row.status with
    | done | uncertain => exact follows_unclaimed rfl
    | failed => exact follows_takeEffect (Or.inl hs)
    | processing =>
      refine follows_now fun current _ h₁ => ?_
      dsimp only
      by_cases hstale : isStale row.updatedAt current = true
      · rw [if_pos hstale]
        refine follows_takeEffect (Or.inr ⟨hs, ?_⟩)
        simp only [isStale, decide_eq_true_eq] at hstale ⊢
        linarith
      · rw [if_neg hstale]
        exact follows_unclaimed rfl

/-- Every claim follows the protocol. -/
theorem ClaimCall.follows (env : Env) (call : ClaimCall) :
    Prog.Follows (claimProtocol t₀ t₁) ClaimedByWriting (call.target env, .begun)
      (call.program env) := by
  cases call with
  | job iv input => exact follows_claimJob env iv input
  | effect input => exact follows_claimEffect env input

end Follows

/-! ## One winner -/

/-- What holds at every point of a race of the claims of one target. -/
structure RaceInv (env : Env) (calls : ℕ → Option ClaimCall) (t₀ t₁ : Instant) (target : Target)
    (race : Race) : Prop where
  governed : Governed (claimProtocol t₀ t₁) ClaimedByWriting race.pool
    fun i => (targetAt env calls i, race.phases i)
  wonAlone : ∀ i j, targetAt env calls i = some target → targetAt env calls j = some target →
    race.phases i = .wrote true → race.phases j = .wrote true → i = j
  wonTaken : ∀ i, targetAt env calls i = some target → race.phases i = .wrote true →
    slot t₁ race.pool.shared target = .taken
  wonLast : ∀ i j, targetAt env calls i = some target → targetAt env calls j = some target →
    race.phases i = .wrote true → ¬ race.Standing j
  standsAlone : ∀ i j, targetAt env calls i = some target → targetAt env calls j = some target →
    race.Standing i → race.Standing j → i = j
  standsOnRow : ∀ i, targetAt env calls i = some target → race.Standing i →
    slot t₁ race.pool.shared target ≠ .absent

section Step

variable {env : Env} {calls : ℕ → Option ClaimCall} {t₀ t₁ now : Instant} {target : Target}
  {race race' : Race} {i : ℕ}

/-- At the start no call has read anything. -/
theorem raceInv_start (db : Db) : RaceInv env calls t₀ t₁ target (Race.start env db calls) where
  governed j p hp := by
    obtain ⟨call, hcall, rfl⟩ := Option.map_eq_some_iff.mp hp
    have htarget : targetAt env calls j = call.target env := by simp [targetAt, hcall]
    show Prog.Follows (claimProtocol t₀ t₁) ClaimedByWriting (targetAt env calls j, .begun) _
    rw [htarget]
    exact call.follows env
  wonAlone _ _ _ _ h := by cases h
  wonTaken _ _ h := by cases h
  wonLast _ _ _ _ h := by cases h
  standsAlone _ _ _ _ h := by cases h.1
  standsOnRow _ _ h := by cases h.1

/-- A step of the call at `i` that leaves the slot, and in which `i` neither wins nor stands up. -/
theorem RaceInv.quiet (h : RaceInv env calls t₀ t₁ target race)
    (hgoverned : Governed (claimProtocol t₀ t₁) ClaimedByWriting race'.pool
      fun j => (targetAt env calls j, race'.phases j))
    (hslot : slot t₁ race'.pool.shared target = slot t₁ race.pool.shared target)
    (hwon : ∀ j, targetAt env calls j = some target → race'.phases j = .wrote true →
      race.phases j = .wrote true)
    (hstands : ∀ j, targetAt env calls j = some target → race'.Standing j → race.Standing j) :
    RaceInv env calls t₀ t₁ target race' where
  governed := hgoverned
  wonAlone j k hj hk hwj hwk := h.wonAlone j k hj hk (hwon j hj hwj) (hwon k hk hwk)
  wonTaken j hj hwj := by rw [hslot]; exact h.wonTaken j hj (hwon j hj hwj)
  wonLast j k hj hk hwj hsk := h.wonLast j k hj hk (hwon j hj hwj) (hstands k hk hsk)
  standsAlone j k hj hk hsj hsk := h.standsAlone j k hj hk (hstands j hj hsj) (hstands k hk hsk)
  standsOnRow j hj hsj := by rw [hslot]; exact h.standsOnRow j hj (hstands j hj hsj)

/-- The call at `i` reads the slot, while nobody else stands there. -/
theorem RaceInv.reads (h : RaceInv env calls t₀ t₁ target race)
    (hgoverned : Governed (claimProtocol t₀ t₁) ClaimedByWriting race'.pool
      fun j => (targetAt env calls j, race'.phases j))
    (hi : targetAt env calls i = some target)
    (hshared : race'.pool.shared = race.pool.shared)
    (hphase : race'.phases i = .saw (slot t₁ race.pool.shared target))
    (hphases : ∀ j ≠ i, race'.phases j = race.phases j)
    (hothers : ∀ j ≠ i, race'.Standing j → race.Standing j)
    (halone : ∀ j ≠ i, targetAt env calls j = some target → ¬ race.Standing j) :
    RaceInv env calls t₀ t₁ target race' := by
  have hwon : ∀ j, race'.phases j = .wrote true → race.phases j = .wrote true := by
    intro j hj
    have hne : j ≠ i := by
      rintro rfl
      rw [hphase] at hj
      cases hj
    rwa [hphases j hne] at hj
  have hstands : ∀ j, targetAt env calls j = some target → race'.Standing j →
      j = i ∧ slot t₁ race.pool.shared target = .claimable := by
    intro j hj hsj
    by_cases hne : j = i
    · subst hne
      have hsaw := hsj.1
      rw [hphase] at hsaw
      exact ⟨rfl, Phase.saw.inj hsaw⟩
    · exact absurd (hothers j hne hsj) (halone j hne hj)
  refine ⟨hgoverned, ?_, ?_, ?_, ?_, ?_⟩
  · exact fun j k hj hk hwj hwk => h.wonAlone j k hj hk (hwon j hwj) (hwon k hwk)
  · intro j hj hwj
    rw [hshared]
    exact h.wonTaken j hj (hwon j hwj)
  · intro j k hj hk hwj hsk
    have htaken := h.wonTaken j hj (hwon j hwj)
    rw [(hstands k hk hsk).2] at htaken
    cases htaken
  · exact fun j k hj hk hsj hsk => (hstands j hj hsj).1.trans (hstands k hk hsk).1.symm
  · intro j hj hsj
    rw [hshared, (hstands j hj hsj).2]
    decide

/-- The batch of the call at `i` succeeds: nobody has won before, and nobody stands any more. -/
theorem RaceInv.takes (h : RaceInv env calls t₀ t₁ target race)
    (hgoverned : Governed (claimProtocol t₀ t₁) ClaimedByWriting race'.pool
      fun j => (targetAt env calls j, race'.phases j))
    (hi : targetAt env calls i = some target) {s : Slot}
    (hs : s = .absent ∨ race.Standing i) (hphase : race.phases i = .saw s)
    (htook : Took t₁ target s race.pool.shared race'.pool.shared)
    (hphase' : race'.phases i = .wrote true)
    (hphases : ∀ j ≠ i, race'.phases j = race.phases j)
    (hothers : ∀ j ≠ i, race'.Standing j → race.Standing j) :
    RaceInv env calls t₀ t₁ target race' := by
  have hnone : ∀ j, targetAt env calls j = some target → race.phases j ≠ .wrote true := by
    intro j hj hwj
    rcases hs with rfl | hstanding
    · have htaken := h.wonTaken j hj hwj
      rw [htook.found rfl] at htaken
      cases htaken
    · exact h.wonLast j i hj hi hwj hstanding
  have hwon : ∀ j, targetAt env calls j = some target → race'.phases j = .wrote true → j = i := by
    intro j hj hwj
    by_contra hne
    rw [hphases j hne] at hwj
    exact hnone j hj hwj
  have htaken : slot t₁ race'.pool.shared target = .taken := by
    apply htook.taken
    rcases hs with rfl | hstanding
    · exact Or.inl rfl
    · exact Or.inr (h.standsOnRow i hi hstanding)
  have hstands : ∀ j, targetAt env calls j = some target → ¬ race'.Standing j := by
    intro j hj hsj
    by_cases hne : j = i
    · subst hne
      have hsaw := hsj.1
      rw [hphase'] at hsaw
      cases hsaw
    · have hold := hothers j hne hsj
      rcases hs with rfl | hstanding
      · exact h.standsOnRow j hj hold (htook.found rfl)
      · exact hne (h.standsAlone j i hj hi hold hstanding)
  exact ⟨hgoverned, fun j k hj hk hwj hwk => (hwon j hj hwj).trans (hwon k hk hwk).symm,
    fun _ _ _ => htaken, fun _ k _ hk _ => hstands k hk, fun j _ hj _ hsj => absurd hsj (hstands j hj),
    fun j hj hsj => absurd hsj (hstands j hj)⟩

/-- In a race, the clock stays within it, and each call reads alone. -/
def Race.Exclusive (env : Env) (calls : ℕ → Option ClaimCall) (t₀ t₁ : Instant) (race : Race)
    (s : ℕ × Instant) : Prop :=
  (t₀ ≤ s.2 ∧ s.2 ≤ t₁) ∧ race.ReadsAlone env calls s.1

/-- The answer of the clock is within the race, and nothing is relied on about other answers. -/
theorem clockWithin_serve (db : Db) (c : Step) (h : t₀ ≤ now ∧ now ≤ t₁) :
    ClockWithin t₀ t₁ c (serve now db c).2 := by
  cases c with
  | now => exact h
  | _ => trivial

/-- A step of the call at `i` moves the database, and of the phases and programs its own only. -/
structure Race.Moves (t₁ : Instant) (race race' : Race) (i : ℕ) (now : Instant) (c : Step) :
    Prop where
  shared : race'.pool.shared = (serve now race.pool.shared c).1
  self : race'.phases i = (race.phases i).next t₁ c (serve now race.pool.shared c).2
  phases : ∀ j ≠ i, race'.phases j = race.phases j
  standing : ∀ j ≠ i, race'.Standing j → race.Standing j

theorem Race.moves (t₁ : Instant) {c : Step} {k : c.Answer → Prog Step Step.Answer Bool}
    (hproc : race.pool.procs i = some (.call c k)) (now : Instant) :
    race.Moves t₁ (race.step t₁ (i, now)) i now c := by
  have hpool : (race.step t₁ (i, now)).pool = race.pool.advance serve i now := rfl
  have hphases : (race.step t₁ (i, now)).phases = Function.update race.phases i
      ((race.phases i).next t₁ c (serve now race.pool.shared c).2) := by
    simp [Race.step, hproc]
  have hother : ∀ j ≠ i, (race.step t₁ (i, now)).phases j = race.phases j := by
    intro j hj
    rw [hphases, Function.update_of_ne hj]
  refine ⟨by rw [hpool, Pool.advance_call hproc], by rw [hphases, Function.update_self], hother, ?_⟩
  rintro j hj ⟨hsaw, hcall⟩
  rw [hother j hj] at hsaw
  rw [hpool, Pool.advance_call hproc] at hcall
  simp only [Function.update_of_ne hj] at hcall
  exact ⟨hsaw, hcall⟩

/-- A step keeps to the protocol of its call, if the clock is within the race. -/
theorem RaceInv.governed_step (h : RaceInv env calls t₀ t₁ target race) {c : Step}
    {k : c.Answer → Prog Step Step.Answer Bool} (hproc : race.pool.procs i = some (.call c k))
    (hclock : t₀ ≤ now ∧ now ≤ t₁) :
    Permits t₀ (targetAt env calls i, race.phases i) c ∧
      Governed (claimProtocol t₀ t₁) ClaimedByWriting (race.step t₁ (i, now)).pool
        fun j => (targetAt env calls j, (race.step t₁ (i, now)).phases j) := by
  have hmoves := race.moves t₁ hproc now
  have hrely := clockWithin_serve race.pool.shared c hclock
  obtain ⟨hpre, hgoverned⟩ := h.governed.advance serve hproc now hrely
  refine ⟨hpre, (congrArg (Governed _ _ _) (funext fun j => ?_)).mp hgoverned⟩
  by_cases hj : j = i
  · subst hj
    simp [hmoves.self, claimProtocol]
  · simp [hmoves.phases j hj, hj]

section Moves

variable {c : Step} {own : Target} (h : RaceInv env calls t₀ t₁ target race)
  (hgoverned : Governed (claimProtocol t₀ t₁) ClaimedByWriting race'.pool
    fun j => (targetAt env calls j, race'.phases j))
  (hown : targetAt env calls i = some own)

include h hgoverned hown

/-- A claim of another target moves, and leaves the slot. -/
theorem RaceInv.elsewhere (hmoves : race.Moves t₁ race' i now c) (hother : own ≠ target)
    (hslot : slot t₁ race'.pool.shared target = slot t₁ race.pool.shared target) :
    RaceInv env calls t₀ t₁ target race' := by
  have hne : ∀ j, targetAt env calls j = some target → j ≠ i := by
    rintro j hj rfl
    exact hother (Option.some.inj (hown.symm.trans hj))
  refine h.quiet hgoverned hslot (fun j hj hw => ?_) fun j hj => hmoves.standing j (hne j hj)
  rwa [hmoves.phases j (hne j hj)] at hw

/-- The call at `i` makes its read. -/
theorem RaceInv.step_read (hmoves : race.Moves t₁ race' i now own.read)
    (hphase : race.phases i = .begun) (halone : race.ReadsAlone env calls i) :
    RaceInv env calls t₀ t₁ target race' := by
  have hread : race'.pool.shared = race.pool.shared ∧
      race'.phases i = .saw (slot t₁ race.pool.shared own) := by
    rw [hmoves.shared, hmoves.self]
    cases own <;> exact ⟨rfl, rfl⟩
  by_cases hmine : own = target
  · subst hmine
    refine h.reads hgoverned hown hread.1 hread.2 hmoves.phases hmoves.standing ?_
    exact fun j hj hjt => halone hphase j hj (hjt.trans hown.symm)
  · exact h.elsewhere hgoverned hown hmoves hmine (by rw [hread.1])

omit hown in
/-- The call at `i` looks at the clock. -/
theorem RaceInv.step_clock (hmoves : race.Moves t₁ race' i now .now)
    (hstanding : race.phases i = .saw .claimable → race.Standing i) :
    RaceInv env calls t₀ t₁ target race' := by
  have hstays : race'.phases = race.phases := by
    funext j
    by_cases hj : j = i
    · rw [hj]
      exact hmoves.self
    · exact hmoves.phases j hj
  refine h.quiet hgoverned (by rw [hmoves.shared]; rfl) (fun j _ hw => by rwa [hstays] at hw) ?_
  intro j _ hsj
  by_cases hj : j = i
  · subst hj
    rw [Race.Standing, hstays] at hsj
    exact hstanding hsj.1
  · exact hmoves.standing j hj hsj

omit hown in
/-- The batch of the call at `i` fails, and the call is out of the race. -/
theorem RaceInv.step_missed {writes : List Write} (hmoves : race.Moves t₁ race' i now (.batch writes))
    (hserve : serve now race.pool.shared (.batch writes) = (race.pool.shared, false)) :
    RaceInv env calls t₀ t₁ target race' := by
  have hself : race'.phases i = .wrote false := by
    rw [hmoves.self, hserve]
    rfl
  have hout : ∀ j, race'.phases j = .wrote true ∨ race'.Standing j → j ≠ i := by
    rintro j (hj | hj) rfl
    · rw [hself] at hj
      cases hj
    · have hsaw := hj.1
      rw [hself] at hsaw
      cases hsaw
  refine h.quiet hgoverned (by rw [hmoves.shared, hserve]) (fun j _ hw => ?_)
    fun j _ hsj => hmoves.standing j (hout j (Or.inr hsj)) hsj
  rwa [hmoves.phases j (hout j (Or.inl hw))] at hw

/-- The batch of the call at `i` succeeds. -/
theorem RaceInv.step_wrote (hwindow : t₁ < t₀ + 600000) {s : Slot} {writes : List Write} {db' : Db}
    (hmoves : race.Moves t₁ race' i now (.batch writes)) (hphase : race.phases i = .saw s)
    (hstanding : s = .claimable → race.Standing i) (htakes : Takes t₀ own s writes)
    (hw : writes.foldlM Write.apply race.pool.shared = some db') :
    RaceInv env calls t₀ t₁ target race' := by
  have hserve : serve now race.pool.shared (.batch writes) = (db', true) := by
    simp [serve, hw]
  have htook : Took t₁ own s race.pool.shared race'.pool.shared := by
    rw [hmoves.shared, hserve]
    exact htakes.took hwindow hw
  by_cases hmine : own = target
  · subst hmine
    have hs : s = .absent ∨ race.Standing i := by
      cases htakes with
      | insertJob | insertArticle | insertEffect => exact Or.inl rfl
      | reclaimJob | reclaimEffect => exact Or.inr (hstanding rfl)
    have hwrote : race'.phases i = .wrote true := by
      rw [hmoves.self, hserve]
      rfl
    exact h.takes hgoverned hown hs hphase htook hwrote hmoves.phases hmoves.standing
  · exact h.elsewhere hgoverned hown hmoves hmine (htook.others target (Ne.symm hmine))

end Moves

/-- **A step of a race.** What a call may do next depends on what it has read so far. -/
theorem raceInv_step (hwindow : t₁ < t₀ + 600000) (h : RaceInv env calls t₀ t₁ target race)
    (hclock : t₀ ≤ now ∧ now ≤ t₁) (halone : race.ReadsAlone env calls i) :
    RaceInv env calls t₀ t₁ target (race.step t₁ (i, now)) := by
  by_cases hcall : ∃ c k, race.pool.procs i = some (.call c k)
  · obtain ⟨c, k, hproc⟩ := hcall
    have hmoves := race.moves t₁ hproc now
    obtain ⟨⟨own, hown, hpermits⟩, hgoverned⟩ := h.governed_step hproc hclock
    have hown : targetAt env calls i = some own := hown
    cases hphase : race.phases i with
    | wrote done =>
      simp only [hphase] at hpermits
    | begun =>
      simp only [hphase] at hpermits
      subst hpermits
      exact h.step_read hgoverned hown hmoves hphase halone
    | saw s =>
      simp only [hphase] at hpermits
      have hstanding : s = .claimable → race.Standing i := by
        rintro rfl
        exact ⟨hphase, c, k, hproc⟩
      rcases hpermits with rfl | ⟨writes, rfl, htakes⟩
      · exact h.step_clock hgoverned hmoves fun hsaw =>
          hstanding (Phase.saw.inj (hphase.symm.trans hsaw))
      · cases hw : writes.foldlM Write.apply race.pool.shared with
        | none => exact h.step_missed hgoverned hmoves (by simp [serve, hw])
        | some db' => exact h.step_wrote hgoverned hown hwindow hmoves hphase hstanding htakes hw
  · -- the call is over, or there is none
    have hsame : race.step t₁ (i, now) = race := by
      unfold Race.step Pool.advance
      cases hproc : race.pool.procs i with
      | none => rfl
      | some p =>
        cases p with
        | ret claimed => rfl
        | call c k => exact absurd ⟨c, k, hproc⟩ hcall
    rw [hsame]
    exact h

theorem raceInv_next (hwindow : t₁ < t₀ + 600000) (h : RaceInv env calls t₀ t₁ target race)
    {s : ℕ × Instant} (hs : race.Exclusive env calls t₀ t₁ s) :
    RaceInv env calls t₀ t₁ target ((raceMachine t₁).next race s) :=
  raceInv_step hwindow h hs.1 hs.2

end Step

/--
**One claim wins, as long as nobody reads a row that another claim is about to take.** In any
interleaving of claims of jobs and of effects within ten minutes in which each call reads alone, at
most one of the claims of a target returns `claimed`, whatever the tables held at the start.
-/
theorem claims_exclusive (env : Env) (db : Db) (calls : ℕ → Option ClaimCall) (t₀ t₁ : Instant)
    (hwindow : t₁ < t₀ + 600000) (steps : List (ℕ × Instant))
    (h : (raceMachine t₁).Admits (Race.Exclusive env calls t₀ t₁) (Race.start env db calls) steps) :
    ((raceMachine t₁).run (Race.start env db calls) steps).OneWinner env calls := by
  intro i j target hi hj hci hcj
  have hinv : RaceInv env calls t₀ t₁ target
      ((raceMachine t₁).run (Race.start env db calls) steps) :=
    Machine.run_invariant (I := RaceInv env calls t₀ t₁ target)
      (fun _ _ hinv hs => raceInv_next hwindow hinv hs) (raceInv_start db) h
  have hwon := fun k (hk : Race.claimed _ k = true) =>
    hinv.governed k (.ret true) (Race.claimed_iff.mp hk) rfl
  exact hinv.wonAlone i j hi hj (hwon i hci) (hwon j hcj)

/-! ## Two claims of a failed row -/

/-- Two calls, and no others. -/
def pair (first second : ClaimCall) : ℕ → Option ClaimCall
  | 0 => some first
  | 1 => some second
  | _ + 2 => none

/-- A job and an effect that have failed once. -/
def failedDb : Db :=
  let claimed := (jobMachine Sample.env .d1).run ∅
    [(0, .claim [] (Sample.textJob Sample.firstId).toJson),
      (1000, .finish Sample.firstId (.failed (some .retryable) none none))]
  (effectMachine .d1).run claimed
    [(0, .claim ⟨"article_archive", "k", "j"⟩), (1000, .finish "k" ⟨.failed, none, none⟩)]

def jobPair : ℕ → Option ClaimCall :=
  pair (.job [] (Sample.textJob Sample.firstId).toJson)
    (.job [] (Sample.textJob Sample.secondId).toJson)

def effectPair : ℕ → Option ClaimCall :=
  pair (.effect ⟨"article_archive", "k", "j"⟩) (.effect ⟨"article_archive", "k", "j'"⟩)

/-- Both calls read, and then each looks at the clock and writes. -/
def overlapping : List (ℕ × Instant) :=
  [(0, 2000), (1, 2000), (0, 2000), (0, 2000), (1, 2001), (1, 2001)]

/-- The same steps, the second call after the first. -/
def consecutive : List (ℕ × Instant) :=
  [(0, 2000), (0, 2000), (0, 2000), (1, 2000), (1, 2001), (1, 2001)]

theorem readsAlone_jobPair {race : Race} {i : ℕ}
    (h : ∀ j < 2, j ≠ i → race.phases j ≠ .saw .claimable) :
    i < 2 → race.ReadsAlone Sample.env jobPair i := by
  intro hi _ j hj htarget hstanding
  by_cases hlt : j < 2
  · exact h j hlt hj hstanding.1
  · obtain ⟨n, rfl⟩ : ∃ n, j = n + 2 := ⟨j - 2, by omega⟩
    have hnone : targetAt Sample.env jobPair (n + 2) = none := rfl
    rw [hnone] at htarget
    have hsome : ∀ i < 2, targetAt Sample.env jobPair i ≠ none := by decide
    exact hsome i hi htarget.symm

/-- Of two claims one after the other, one wins. -/
theorem claims_exclusive_consecutive :
    ((raceMachine 2001).run (Race.start Sample.env failedDb jobPair) consecutive).OneWinner
      Sample.env jobPair :=
  claims_exclusive Sample.env failedDb jobPair 2000 2001 (by decide) consecutive
    ⟨⟨by decide, readsAlone_jobPair (by decide) (by decide)⟩,
      ⟨by decide, readsAlone_jobPair (by decide) (by decide)⟩,
      ⟨by decide, readsAlone_jobPair (by decide) (by decide)⟩,
      ⟨by decide, readsAlone_jobPair (by decide) (by decide)⟩,
      ⟨by decide, readsAlone_jobPair (by decide) (by decide)⟩,
      ⟨by decide, readsAlone_jobPair (by decide) (by decide)⟩, trivial⟩

/-- Of two claims that both read the failed row, both win. -/
theorem failed_row_claimed_twice :
    ¬ ((raceMachine 2001).run (Race.start Sample.env failedDb jobPair) overlapping).OneWinner
        Sample.env jobPair ∧
      ¬ ((raceMachine 2001).run (Race.start Sample.env failedDb effectPair) overlapping).OneWinner
        Sample.env effectPair := by
  constructor
  · intro h
    have hsame := h 0 1 (.job (Sample.textJob Sample.firstId).dedupeKey) (by decide) (by decide)
      (by decide) (by decide)
    cases hsame
  · intro h
    have hsame := h 0 1 (.effect "k") (by decide) (by decide) (by decide) (by decide)
    cases hsame

end InboxServer.D1
