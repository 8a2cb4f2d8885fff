import InboxServer.Infra.Interleave
import InboxServer.Api.D1.Limits

/-!
# Rate limit buckets that race on D1

Any number of calls of `consumeRateLimit` for one bucket interleave, statement by statement, under a
clock that does not go back. A call writes the count that it has computed from its read.

* `never_over_admits` — as long as each call writes to the row that it has read, no window admits
  more calls than its limit
* `two_first_uses` — two calls that both find no row are both admitted under a limit of one
-/

namespace InboxServer.D1

open Infra
open Postgres (RateLimitReply)

/-! ## Calls that interleave -/

/-- The row that a call has read. -/
def rowNote : Watched.Note (Db × Instant) LimitStep LimitStep.Answer (Option RateLimitRow)
  | _, _, .selectLimit .., row, _ => row
  | row, _, _, _, _ => row

/-- Calls on one bucket, with the time of the last step. -/
abbrev BucketRace :=
  Watched ℕ (Db × Instant) LimitStep LimitStep.Answer (Except ErrorText RateLimitReply)
    (Option RateLimitRow)

abbrev bucketMachine : Machine BucketRace (ℕ × Instant) Unit :=
  Watched.machine (timed serveLimits) rowNote

/-- The calls at the places in `active`, all with one input, before the first step. -/
def BucketRace.start (db : Db) (time : Instant) (input : RateLimitInput) (active : ℕ → Bool) :
    BucketRace where
  pool := { shared := (db, time)
            procs := fun i => if active i then some (consumeRateLimit input) else none }
  notes _ := none

/-- The row of a bucket. -/
def bucketRow (input : RateLimitInput) (db : Db) : Option RateLimitRow :=
  db.rateLimits.lookup RateLimitRow.key (input.scope, input.bucketKey)

/-- The expiry that a step sets: that of a first use. -/
def LimitStep.expiry : LimitStep → Option Instant
  | startWindow row => some row.expiresAt
  | _ => none

/-- The step writes to a bucket. -/
def LimitStep.writesBucket : LimitStep → Bool
  | startWindow _ | setCount .. => true
  | _ => false

namespace BucketRace

/-- The call does not write, or the row is the one that it has read. -/
def Undisturbed (input : RateLimitInput) (w : BucketRace) (i : ℕ) : Prop :=
  match w.pool.procs i with
  | some (.call c _) => c.writesBucket = true → bucketRow input w.pool.shared.1 = w.notes i
  | some (.ret _) | none => True

instance (input : RateLimitInput) (w : BucketRace) (i : ℕ) : Decidable (w.Undisturbed input i) := by
  unfold Undisturbed
  split <;> infer_instance

/-- The clock does not go back, and no call writes over the write of another. -/
def Steady (input : RateLimitInput) (w : BucketRace) (s : ℕ × Instant) : Prop :=
  w.pool.shared.2 ≤ s.2 ∧ w.Undisturbed input s.1

instance (input : RateLimitInput) (w : BucketRace) (s : ℕ × Instant) :
    Decidable (w.Steady input s) := inferInstanceAs (Decidable (_ ∧ _))

/-- The step is one at which a call returns `allowed`. -/
def admitsAt (w : BucketRace) (s : ℕ × Instant) : Bool :=
  match w.result s.1, (bucketMachine.next w s).result s.1 with
  | none, some (.ok (.allowed _)) => true
  | _, _ => false

/-- How many calls return `allowed` before an instant. -/
def admissions (expiresAt : Instant) : BucketRace → List (ℕ × Instant) → ℕ
  | _, [] => 0
  | w, s :: steps =>
    (if s.2 < expiresAt ∧ w.admitsAt s then 1 else 0) +
      admissions expiresAt (bucketMachine.next w s) steps

/-- The expiry that the step sets, where it is the write of a first use. -/
def opens (w : BucketRace) (s : ℕ × Instant) : Option Instant :=
  match w.pool.procs s.1 with
  | some (.call c _) => c.expiry
  | some (.ret _) | none => none

end BucketRace

/-- No window of the run, nor the one that it starts in, admits more calls than the limit. -/
structure NeverOverAdmits (db : Db) (time : Instant) (input : RateLimitInput) (active : ℕ → Bool)
    (steps : List (ℕ × Instant)) : Prop where
  opened : ∀ pre s mid expiresAt, steps = pre ++ s :: mid →
    (bucketMachine.run (BucketRace.start db time input active) pre).opens s = some expiresAt →
    (bucketMachine.run (BucketRace.start db time input active) pre).admissions expiresAt (s :: mid) ≤
      input.limit
  found : ∀ row, bucketRow input db = some row →
    (BucketRace.start db time input active).admissions row.expiresAt steps ≤ input.limit

/-! ## What a call knows -/

/-- Where a call stands, with the row that it has read, at a time. -/
inductive BucketStage (input : RateLimitInput) (time : Instant) :
    Option RateLimitRow → LimitCall RateLimitReply → Prop
  | start {row : Option RateLimitRow} : BucketStage input time row (consumeRateLimit input)
  | read (row : Option RateLimitRow) :
      BucketStage input time row (.call .now fun currentTime => decideLimit input row currentTime)
  | opening {row : Option RateLimitRow} {currentTime : Instant}
      (expired : ∀ current, row = some current → current.expiresAt ≤ currentTime)
      (past : currentTime ≤ time) : BucketStage input time row (startWindow input currentTime)
  | opened {row : Option RateLimitRow} {currentTime updatedAt : Instant}
      (expired : ∀ current, row = some current → current.expiresAt ≤ currentTime)
      (past : currentTime ≤ time) :
      BucketStage input time row
        (.call (.startWindow (RateLimitRow.first input currentTime updatedAt)) fun _ =>
          .ret (.ok (.allowed 1)))
  | counting {current : RateLimitRow} (free : current.count < input.limit) :
      BucketStage input time (some current) (countUse input (current.count + 1))
  | counted {current : RateLimitRow} {updatedAt : Instant} (free : current.count < input.limit) :
      BucketStage input time (some current)
        (.call (.setCount (current.count + 1) updatedAt input.scope input.bucketKey) fun _ =>
          .ret (.ok (.allowed (current.count + 1))))
  | returned {row : Option RateLimitRow} (reply : Except ErrorText RateLimitReply) :
      BucketStage input time row (.ret reply)

section Stage

variable {input : RateLimitInput} {time now : Instant} {row : Option RateLimitRow} {db : Db}

/-- The stage of a call stays as time goes on. -/
theorem BucketStage.later {p : LimitCall RateLimitReply} (h : BucketStage input time row p)
    (hle : time ≤ now) : BucketStage input now row p := by
  cases h with
  | start => exact .start
  | read => exact .read row
  | opening expired past => exact .opening expired (le_trans past hle)
  | opened expired past => exact .opened expired (le_trans past hle)
  | counting free => exact .counting free
  | counted free => exact .counted free
  | returned reply => exact .returned reply

/-- A step takes a call to its next stage. -/
theorem bucketStage_step {c : LimitStep} {k : c.Answer → LimitCall RateLimitReply}
    (h : BucketStage input time row (.call c k)) (hle : time ≤ now) :
    BucketStage input now
      (rowNote row (db, time) c (serveLimits now db c).2 ((serveLimits now db c).1, now))
      (k (serveLimits now db c).2) := by
  cases h with
  | start => exact .read _
  | read =>
    show BucketStage input now row (decideLimit input row now)
    cases row with
    | none => exact .opening (fun _ h => by cases h) (le_refl now)
    | some current =>
      unfold decideLimit
      dsimp only
      split
      · next hexpired =>
        refine .opening (fun other h => ?_) (le_refl now)
        rw [← Option.some.inj h]
        exact hexpired
      · split
        · exact .returned _
        · next hfree => exact .counting (not_le.mp hfree)
  | opening expired past => exact .opened expired (le_trans past hle)
  | opened expired past => exact .returned _
  | counting free => exact .counted free
  | counted free => exact .returned _

end Stage

/-- What holds in every steady run. -/
def bucketOutline (input : RateLimitInput) :
    ProofOutline (ι := ℕ) (α := Except ErrorText RateLimitReply) (timed serveLimits) rowNote where
  admits := BucketRace.Steady input
  shared _ := True
  at_ _ s row p := BucketStage input s.2 row p
  own _ _ _ _ _ _ hsteady _ hstage := ⟨trivial, bucketStage_step hstage hsteady.1⟩
  others _ _ _ _ _ _ _ _ _ hsteady _ _ _ hother := hother.later hsteady.1

/-! ## Counting the admissions -/

section Admissions

variable {input : RateLimitInput} {w : BucketRace} {row : RateLimitRow} {expiresAt : Instant}

theorem admitsAt_eq_true {s : ℕ × Instant} (h : w.admitsAt s = true) :
    w.result s.1 = none ∧ ∃ count, (bucketMachine.next w s).result s.1 = some (.ok (.allowed count)) := by
  unfold BucketRace.admitsAt at h
  split at h
  · next hnone hsome => exact ⟨hnone, _, hsome⟩
  · cases h

/-- What a step does to the row of the bucket, and whether it admits a call. -/
inductive BucketStep (input : RateLimitInput) (w : BucketRace) (s : ℕ × Instant) : Prop where
  | quiet (row : bucketRow input (bucketMachine.next w s).pool.shared.1 =
        bucketRow input w.pool.shared.1)
      (refused : w.admitsAt s = false) (opens : w.opens s = none)
  | opened {row : RateLimitRow} (opens : w.opens s = some row.expiresAt)
      (expired : ∀ current, bucketRow input w.pool.shared.1 = some current →
        current.expiresAt ≤ s.2)
      (written : bucketRow input (bucketMachine.next w s).pool.shared.1 = some row)
      (count : row.count = 1) (time : (bucketMachine.next w s).pool.shared.2 = s.2)
  | counted {current : RateLimitRow} {updatedAt : Instant}
      (found : bucketRow input w.pool.shared.1 = some current) (free : current.count < input.limit)
      (written : bucketRow input (bucketMachine.next w s).pool.shared.1 =
        some (current.setCount (current.count + 1) updatedAt))
      (opens : w.opens s = none)

/-- The row after the write of a first use: the new one, or the old one started again. -/
theorem bucketRow_first (input : RateLimitInput) (db : Db) (currentTime updatedAt : Instant) :
    ∃ row, bucketRow input (serveLimits updatedAt db
        (.startWindow (RateLimitRow.first input currentTime updatedAt))).1 = some row ∧
      row.count = 1 ∧ row.expiresAt = currentTime + input.windowSeconds * 1000 := by
  have hkeeps : ∀ r : RateLimitRow,
      (r.restart (currentTime + input.windowSeconds * 1000) updatedAt).key = r.key := fun _ => rfl
  have hwritten := Table.lookup_upsert (t := db.rateLimits)
    (r := RateLimitRow.first input currentTime updatedAt) RateLimitRow.conflict_iff hkeeps
  refine ⟨_, hwritten, ?_⟩
  cases Table.lookup _ RateLimitRow.key _ <;> exact ⟨rfl, rfl⟩

/-- A call is not allowed before it has written. -/
theorem decideLimit_ne_allowed (row : Option RateLimitRow) (currentTime : Instant) (count : Nat) :
    decideLimit input row currentTime ≠ .ret (.ok (.allowed count)) := by
  unfold decideLimit
  cases row with
  | none => exact fun h => by cases h
  | some current =>
    dsimp only
    split
    · exact fun h => by cases h
    · split
      · exact fun h => by cases h
      · exact fun h => by cases h

/-- A step of a steady run. -/
theorem bucketStep (hw : (bucketOutline input).Holds w) {s : ℕ × Instant} (hs : w.Steady input s) :
    BucketStep input w s := by
  obtain ⟨i, now⟩ := s
  by_cases hcall : ∃ c k, w.pool.procs i = some (.call c k)
  · obtain ⟨c, k, hcall⟩ := hcall
    have hstage := hw.2 i _ hcall
    have hshared : (bucketMachine.next w (i, now)).pool.shared =
        ((serveLimits now w.pool.shared.1 c).1, now) := Watched.step_shared hcall now
    have hproc : (bucketMachine.next w (i, now)).pool.procs i =
        some (k (serveLimits now w.pool.shared.1 c).2) := Watched.step_procs_self hcall now
    -- a step that does not return an admission admits nothing
    have hquiet : (∀ count, k (serveLimits now w.pool.shared.1 c).2 ≠ .ret (.ok (.allowed count))) →
        w.admitsAt (i, now) = false := by
      intro hne
      rw [Bool.eq_false_iff]
      intro h
      obtain ⟨-, count, hcount⟩ := admitsAt_eq_true h
      rw [Watched.result_eq_some, hproc] at hcount
      exact hne count (Option.some.inj hcount)
    have hundisturbed := hs.2
    unfold BucketRace.Undisturbed at hundisturbed
    rw [hcall] at hundisturbed
    have hopens : w.opens (i, now) = c.expiry := by simp only [BucketRace.opens, hcall]
    generalize w.notes i = row at hstage hundisturbed
    cases hstage with
    | start => exact .quiet (by rw [hshared]; rfl) (hquiet fun _ h => by cases h) hopens
    | read =>
      exact .quiet (by rw [hshared]; rfl) (hquiet fun count => decideLimit_ne_allowed row now count)
        hopens
    | opening expired past =>
      exact .quiet (by rw [hshared]; rfl) (hquiet fun _ h => by cases h) hopens
    -- the upsert opens the bucket, the clock having passed the old one's end
    | @opened _ currentTime updatedAt expired past =>
      have hle : currentTime ≤ now := le_trans past hs.1
      obtain ⟨row', hwritten, hcount, hexpiry⟩ :=
        bucketRow_first input w.pool.shared.1 currentTime updatedAt
      refine .opened (hopens.trans (congrArg some hexpiry.symm))
        (fun current hcurrent => ?_) (by rw [hshared]; exact hwritten) hcount (by rw [hshared])
      have hrow : row = some current := (hundisturbed rfl).symm.trans hcurrent
      exact le_trans (expired current hrow) hle
    | counting free => exact .quiet (by rw [hshared]; rfl) (hquiet fun _ h => by cases h) hopens
    -- the UPDATE meets the row that was read, since nobody touched it in between
    | @counted current updatedAt free =>
      have hkeeps : ∀ r : RateLimitRow, (r.setCount (current.count + 1) updatedAt).key = r.key :=
        fun _ => rfl
      have hlookup := Table.lookup_update_key (t := w.pool.shared.1.rateLimits) hkeeps
        (input.scope, input.bucketKey) (input.scope, input.bucketKey)
      have hwritten : bucketRow input (bucketMachine.next w (i, now)).pool.shared.1 =
          some (current.setCount (current.count + 1) updatedAt) := by
        rw [hshared]
        refine hlookup.trans ?_
        rw [if_pos rfl]
        exact congrArg (Option.map _) (hundisturbed rfl)
      exact .counted (hundisturbed rfl) free hwritten hopens
  -- a process that has returned takes no step
  · push Not at hcall
    have hsame : bucketMachine.next w (i, now) = w := Watched.step_idle now hcall
    refine .quiet (by rw [hsame]) ?_ ?_
    · rw [Bool.eq_false_iff]
      intro h
      obtain ⟨hnone, count, hcount⟩ := admitsAt_eq_true h
      rw [hsame, hnone] at hcount
      cases hcount
    · unfold BucketRace.opens
      split
      · next c k h => exact absurd h (hcall c k)
      · rfl
      · rfl

/-- The time of the race goes forward. -/
theorem time_next {s : ℕ × Instant} (h : w.pool.shared.2 ≤ s.2) :
    w.pool.shared.2 ≤ (bucketMachine.next w s).pool.shared.2 := by
  obtain ⟨i, now⟩ := s
  by_cases hcall : ∃ c k, w.pool.procs i = some (.call c k)
  · obtain ⟨c, k, hcall⟩ := hcall
    have hshared : (bucketMachine.next w (i, now)).pool.shared =
        ((serveLimits now w.pool.shared.1 c).1, now) := Watched.step_shared hcall now
    rw [hshared]
    exact h
  · push Not at hcall
    rw [show bucketMachine.next w (i, now) = w from Watched.step_idle now hcall]

/-- After its end, a window admits nobody. -/
theorem admissions_past {steps : List (ℕ × Instant)} (h : expiresAt ≤ w.pool.shared.2)
    (hsteps : bucketMachine.Admits (BucketRace.Steady input) w steps) :
    w.admissions expiresAt steps = 0 := by
  induction steps generalizing w with
  | nil => rfl
  | cons s steps ih =>
    obtain ⟨hsteady, hsteps⟩ := hsteps
    have hlate : ¬ (s.2 < expiresAt ∧ w.admitsAt s = true) :=
      fun hin => absurd (le_trans h hsteady.1) (not_le.mpr hin.1)
    rw [BucketRace.admissions, if_neg hlate, ih (le_trans h (time_next hsteady.1)) hsteps]

/-- **A window admits what its row has left.** -/
theorem admissions_le (hw : (bucketOutline input).Holds w) {steps : List (ℕ × Instant)}
    (hsteps : bucketMachine.Admits (BucketRace.Steady input) w steps)
    (hrow : bucketRow input w.pool.shared.1 = some row) :
    w.admissions row.expiresAt steps ≤ input.limit - row.count := by
  induction steps generalizing w row with
  | nil => exact Nat.zero_le _
  | cons s steps ih =>
    obtain ⟨hsteady, hsteps⟩ := hsteps
    have hnext := ProofOutline.next hw (s := s) hsteady
    rw [BucketRace.admissions]
    cases bucketStep hw hsteady with
    | quiet same refused opens =>
      rw [if_neg (by simp [refused]), Nat.zero_add]
      exact ih hnext hsteps (same.trans hrow)
    | opened opens expired written count time =>
      have hlate := expired row hrow
      rw [if_neg (fun hin => absurd hlate (not_le.mpr hin.1)),
        admissions_past (by rw [time]; exact hlate) hsteps]
      exact Nat.zero_le _
    | @counted current updatedAt found free written opens =>
      have hsame : current = row := Option.some.inj (found.symm.trans hrow)
      rw [hsame] at free written
      have hrest := ih hnext hsteps written
      simp only [RateLimitRow.setCount] at hrest
      have hone : (if s.2 < row.expiresAt ∧ w.admitsAt s = true then 1 else 0) ≤ 1 := by
        split <;> omega
      exact le_trans (Nat.add_le_add hone hrest) (by omega)

end Admissions

/-- A window that a step opens admits what the limit allows, the first use included. -/
theorem admissions_opened {input : RateLimitInput} (hlimit : 0 < input.limit) {w : BucketRace}
    (hw : (bucketOutline input).Holds w) {s : ℕ × Instant} {steps : List (ℕ × Instant)}
    (hsteps : bucketMachine.Admits (BucketRace.Steady input) w (s :: steps)) {expiresAt : Instant}
    (hopens : w.opens s = some expiresAt) : w.admissions expiresAt (s :: steps) ≤ input.limit := by
  obtain ⟨hsteady, hsteps⟩ := hsteps
  cases bucketStep hw hsteady with
  | quiet same refused opens =>
    rw [opens] at hopens
    cases hopens
  | @opened row opens expired written count time =>
    obtain rfl : row.expiresAt = expiresAt := Option.some.inj (opens.symm.trans hopens)
    have hrest := admissions_le (ProofOutline.next hw (s := s) hsteady) hsteps written
    have hone : (if s.2 < row.expiresAt ∧ w.admitsAt s = true then 1 else 0) ≤ 1 := by
      split <;> omega
    rw [BucketRace.admissions]
    exact le_trans (Nat.add_le_add hone hrest) (by omega)
  | counted found free written opens =>
    rw [opens] at hopens
    cases hopens

/--
**A window admits at most its limit, as long as each call writes to the row that it has read**,
whatever the row is at the start, and for any number of calls in any interleaving.
-/
theorem never_over_admits (db : Db) (time : Instant) (input : RateLimitInput) (active : ℕ → Bool)
    (steps : List (ℕ × Instant)) (hlimit : 0 < input.limit)
    (hsteady : bucketMachine.Admits (BucketRace.Steady input)
      (BucketRace.start db time input active) steps) :
    NeverOverAdmits db time input active steps := by
  have hstart : (bucketOutline input).Holds (BucketRace.start db time input active) := by
    refine ⟨trivial, fun i p hp => ?_⟩
    have hprogram : (if active i then some (consumeRateLimit input) else none) = some p := hp
    split at hprogram
    · rw [← Option.some.inj hprogram]
      exact .start
    · cases hprogram
  constructor
  · intro pre s mid expiresAt hsteps hopens
    rw [hsteps, Machine.admits_append] at hsteady
    exact admissions_opened hlimit (ProofOutline.run hstart hsteady.1) hsteady.2 hopens
  · intro row hrow
    exact le_trans (admissions_le hstart hsteady hrow) (Nat.sub_le _ _)

/-! ## Two first uses -/

/-- One use an hour. -/
def hourly : RateLimitInput := ⟨"weibo", 1, "collect", 3600⟩

/-- Two calls, one after the other. -/
def oneByOne : List (ℕ × Instant) :=
  [(0, 1000), (0, 1000), (0, 1001), (0, 1002), (1, 1003), (1, 1003)]

/-- Both calls read, and then each writes. -/
def bothRead : List (ℕ × Instant) :=
  [(0, 1000), (1, 1000), (0, 1001), (1, 1001), (0, 1002), (0, 1003), (1, 1003), (1, 1004)]

theorem never_over_admits_oneByOne : NeverOverAdmits ∅ 1000 hourly (· < 2) oneByOne :=
  never_over_admits ∅ 1000 hourly (· < 2) oneByOne (by decide)
    ⟨by decide, by decide, by decide, by decide, by decide, by decide, trivial⟩

theorem two_first_uses : ¬ NeverOverAdmits ∅ 1000 hourly (· < 2) bothRead := by
  intro h
  have hwindow := h.opened (bothRead.take 5) (0, 1003) (bothRead.drop 6) 3601001 rfl (by decide)
  exact absurd hwindow (by decide)

end InboxServer.D1
