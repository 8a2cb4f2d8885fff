import InboxServer.Api.Heartbeats
import InboxServer.Properties.Leases

/-!
# The heartbeat cache

Any number of servers record heartbeats and show overviews, step by step, while the cache fails,
forgets its entry or keeps it for too long.

* `overview_agrees` — an overview shows a worker online as the table alone would, unless the
  heartbeat that the cache returned grows too old between the two clocks of the overview; and the
  entry of the cache never goes back
-/

namespace InboxServer

open Infra

/-! ## Overviews that interleave -/

/-- What a program has seen, and the latest row of the table at its last read. -/
structure OverviewNote where
  dated : Option Instant
  readAt : Option Instant
  cached : Option WorkerHeartbeat
  latest : Option WorkerHeartbeat
  normalizedAt : Option Instant
  deriving DecidableEq

namespace OverviewNote

def blank : OverviewNote := ⟨none, none, none, none, none⟩

/-- The first clock is that of the read, the next one that of the overview. -/
def stamp (time : Instant) (note : OverviewNote) : OverviewNote :=
  match note.readAt with
  | none => { note with readAt := some time }
  | some _ => { note with normalizedAt := some time }

/--
The cache returned a heartbeat that was fresh by the first clock and is too old by the second, and
the table has a fresh one.
-/
def overtaken (note : OverviewNote) : Bool :=
  match note.cached, note.latest, note.readAt, note.normalizedAt with
  | some cached, some latest, some readAt, some normalizedAt =>
    isFreshHeartbeat cached readAt &&
      cached.lastSeenAt + maxHeartbeatAgeMs < normalizedAt &&
      normalizedAt ≤ latest.lastSeenAt + maxHeartbeatAgeMs
  | _, _, _, _ => false

/-- What the overview would show from the table alone. -/
def tableStatus (note : OverviewNote) (snapshot : WorkerStatus) (now : Instant) : WorkerStatus :=
  normalizeOverviewStatus
    (resolveWorkerHeartbeat snapshot (note.latest.map WorkerHeartbeat.lastSeenAt)) now

end OverviewNote

def heartbeatNote (collation : Collation) :
    Watched.Note HeartbeatStore HeartbeatStep HeartbeatStep.Answer OverviewNote
  | note, _, .now, time, _ => note.stamp time
  | note, _, .nowIso, time, _ => { note with dated := some time }
  | note, _, .cacheGet, cached, store =>
    { note with cached := cached.toOption.join
                latest := latestHeartbeat collation store.heartbeats }
  | note, _, .selectLatest, _, store =>
    { note with latest := latestHeartbeat collation store.heartbeats }
  | note, _, .upsertHeartbeat _, _, _ | note, _, .cacheSetIfNewer _, _, _ => note

/-- Requests at any number of places. -/
abbrev HeartbeatRun :=
  Watched ℕ HeartbeatStore HeartbeatStep HeartbeatStep.Answer (Except ErrorText HeartbeatReply)
    OverviewNote

abbrev heartbeatMachine (collation : Collation) : Machine HeartbeatRun (ℕ × HeartbeatMoment) Unit :=
  Watched.machine (serveHeartbeats collation) (heartbeatNote collation)

/-- The requests before their first steps, each with whether its server has a cache. -/
def HeartbeatRun.start (store : HeartbeatStore) (requests : ℕ → Option (Bool × HeartbeatRequest)) :
    HeartbeatRun where
  pool :=
    { shared := store
      procs := fun i => (requests i).map fun r => r.2.program r.1 }
  notes _ := .blank

/-- The clock does not go back, and no heartbeat is dated too far ahead of it. -/
def HeartbeatRun.Timely (w : HeartbeatRun) (s : ℕ × HeartbeatMoment) : Prop :=
  w.pool.shared.clock ≤ s.2.time ∧ s.2.dated ≤ s.2.time + maxFutureSkewMs

instance (w : HeartbeatRun) (s : ℕ × HeartbeatMoment) : Decidable (w.Timely s) :=
  inferInstanceAs (Decidable (_ ∧ _))

/-! ## The table -/

/-- The table has a row that is as late. -/
def HeartbeatStore.Reported (store : HeartbeatStore) (time : Instant) : Prop :=
  ∃ row ∈ store.heartbeats, time ≤ row.lastSeenAt

/-- The entry of the cache is not ahead of the table, nor the table far ahead of the clock. -/
structure HeartbeatStore.Sound (store : HeartbeatStore) : Prop where
  cached : ∀ heartbeat, store.cache = some (.heartbeat heartbeat) →
    store.Reported heartbeat.lastSeenAt
  dated : ∀ row ∈ store.heartbeats, row.lastSeenAt ≤ store.clock + maxFutureSkewMs

instance (collation : Collation) : Std.Total (latestFirst collation) where
  total a b := by
    rcases lt_trichotomy a.lastSeenAt b.lastSeenAt with hlt | heq | hgt
    · exact Or.inr (Or.inl hlt)
    · rcases collation.total a.workerId b.workerId with hle | hle
      · exact Or.inr (Or.inr ⟨heq.symm, hle⟩)
      · exact Or.inl (Or.inr ⟨heq, hle⟩)
    · exact Or.inl (Or.inl hgt)

instance (collation : Collation) : IsTrans WorkerHeartbeat (latestFirst collation) where
  trans a b c hab hbc := by
    rcases hab with hab | ⟨hab, hle⟩
    · rcases hbc with hbc | ⟨hbc, -⟩
      · exact Or.inl (lt_trans hbc hab)
      · exact Or.inl (by rwa [← hbc])
    · rcases hbc with hbc | ⟨hbc, hle'⟩
      · exact Or.inl (by rwa [hab])
      · exact Or.inr ⟨hab.trans hbc, collation.trans _ _ _ hle' hle⟩

section Table

variable {collation : Collation} {heartbeats : Table WorkerHeartbeat}
  {heartbeat row : WorkerHeartbeat} {time : Instant}

/-- The latest heartbeat is one of the table, and none is later. -/
theorem latestHeartbeat_eq_some (h : latestHeartbeat collation heartbeats = some heartbeat) :
    heartbeat ∈ heartbeats ∧ ∀ row ∈ heartbeats, row.lastSeenAt ≤ heartbeat.lastSeenAt := by
  unfold latestHeartbeat at h
  have hsorted := List.pairwise_insertionSort (latestFirst collation) heartbeats.rows
  have hmem : ∀ row, row ∈ heartbeats.rows.insertionSort (latestFirst collation) ↔
      row ∈ heartbeats.rows := fun row => List.mem_insertionSort _
  cases hrows : heartbeats.rows.insertionSort (latestFirst collation) with
  | nil =>
    rw [hrows] at h
    cases h
  | cons first rest =>
    rw [hrows] at h hsorted hmem
    cases h
    refine ⟨(hmem _).mp List.mem_cons_self, fun row hrow => ?_⟩
    rcases List.mem_cons.mp ((hmem row).mpr hrow) with rfl | hrest
    · exact le_refl _
    · rcases (List.pairwise_cons.mp hsorted).1 row hrest with hlt | ⟨heq, -⟩
      · exact le_of_lt hlt
      · exact le_of_eq heq.symm

/-- A table that has a heartbeat has a latest one. -/
theorem latestHeartbeat_of_mem (h : row ∈ heartbeats) :
    ∃ heartbeat, latestHeartbeat collation heartbeats = some heartbeat ∧
      row.lastSeenAt ≤ heartbeat.lastSeenAt := by
  cases hlatest : latestHeartbeat collation heartbeats with
  | none =>
    have hnil := List.head?_eq_none_iff.mp hlatest
    have hsorted := (List.mem_insertionSort (latestFirst collation)).mpr h
    rw [hnil] at hsorted
    cases hsorted
  | some heartbeat => exact ⟨heartbeat, rfl, (latestHeartbeat_eq_some hlatest).2 row h⟩

theorem le_refresh (excluded row : WorkerHeartbeat) :
    row.lastSeenAt ≤ (excluded.refresh row).lastSeenAt := by
  unfold WorkerHeartbeat.refresh
  split
  · next h => exact h
  · exact le_refl _

theorem refresh_lastSeenAt (excluded row : WorkerHeartbeat) :
    (excluded.refresh row).lastSeenAt = row.lastSeenAt ∨
      (excluded.refresh row).lastSeenAt = excluded.lastSeenAt := by
  unfold WorkerHeartbeat.refresh
  split
  · exact Or.inr rfl
  · exact Or.inl rfl

/-- No row of the table is taken back. -/
theorem upsertHeartbeat_keeps (h : row ∈ heartbeats) (heartbeat : WorkerHeartbeat) :
    ∃ row' ∈ upsertHeartbeat heartbeat heartbeats, row.lastSeenAt ≤ row'.lastSeenAt := by
  rcases Table.exists_mem_upsert (r := heartbeat) (f := heartbeat.refresh) h with hrow | hrow
  · exact ⟨_, hrow, le_refl _⟩
  · exact ⟨_, hrow, le_refresh heartbeat row⟩

/-- Every instant in the table was in it, or is that of the new heartbeat. -/
theorem upsertHeartbeat_lastSeenAt (h : row ∈ upsertHeartbeat heartbeat heartbeats) :
    (∃ row' ∈ heartbeats, row.lastSeenAt = row'.lastSeenAt) ∨
      row.lastSeenAt = heartbeat.lastSeenAt := by
  rcases Table.mem_upsert h with hrow | rfl | ⟨row', hrow', -, rfl⟩
  · exact Or.inl ⟨row, hrow, rfl⟩
  · exact Or.inr rfl
  · rcases refresh_lastSeenAt heartbeat row' with hkept | hmoved
    · exact Or.inl ⟨row', hrow', hkept⟩
    · exact Or.inr hmoved

end Table

/-! ## What the programs may rely on -/

/-- What a note knows of the shared state. -/
structure OverviewNote.Knows (store : HeartbeatStore) (note : OverviewNote) : Prop where
  dated : ∀ time, note.dated = some time → time ≤ store.clock + maxFutureSkewMs
  readAt : ∀ time, note.readAt = some time → time ≤ store.clock
  latest : ∀ heartbeat, note.latest = some heartbeat → store.Reported heartbeat.lastSeenAt

/-- Only a dated heartbeat is written to the table, and only its latest row to the cache. -/
def heartbeatContract : Contract HeartbeatStep HeartbeatStep.Answer OverviewNote where
  asks note
    | .upsertHeartbeat heartbeat => note.dated = some heartbeat.lastSeenAt
    | .cacheSetIfNewer heartbeat => note.latest = some heartbeat
    | .now | .nowIso | .selectLatest | .cacheGet => True
  learns note
    | .now, time, note' =>
      note' = note.stamp time ∧ (∀ readAt, note.readAt = some readAt → readAt ≤ time) ∧
        ∀ heartbeat, note.latest = some heartbeat → heartbeat.lastSeenAt ≤ time + maxFutureSkewMs
    | .nowIso, time, note' => note' = { note with dated := some time }
    | .cacheGet, cached, note' =>
      ∃ latest, note' = { note with cached := cached.toOption.join, latest } ∧
        ∀ heartbeat, cached = .ok (some heartbeat) →
          ∃ row, latest = some row ∧ heartbeat.lastSeenAt ≤ row.lastSeenAt
    | .selectLatest, found, note' =>
      ∃ latest, note' = { note with latest } ∧
        ∀ heartbeat, found = .ok heartbeat → heartbeat = latest
    | .upsertHeartbeat _, _, note' | .cacheSetIfNewer _, _, note' => note' = note

section Serve

variable {collation : Collation} {store : HeartbeatStore} {note : OverviewNote}
  {moment : HeartbeatMoment} {time : Instant}

theorem HeartbeatStore.Reported.mono {store' : HeartbeatStore} (h : store.Reported time)
    (hkeeps : ∀ row ∈ store.heartbeats,
      ∃ row' ∈ store'.heartbeats, row.lastSeenAt ≤ row'.lastSeenAt) :
    store'.Reported time := by
  obtain ⟨row, hrow, hle⟩ := h
  obtain ⟨row', hrow', hle'⟩ := hkeeps row hrow
  exact ⟨row', hrow', le_trans hle hle'⟩

/-- A step moves the clock on, and takes no row of the table back. -/
theorem serveHeartbeats_keeps (collation : Collation) (moment : HeartbeatMoment)
    (store : HeartbeatStore) (c : HeartbeatStep) :
    (serveHeartbeats collation moment store c).1.clock = moment.time ∧
      ∀ row ∈ store.heartbeats, ∃ row' ∈ (serveHeartbeats collation moment store c).1.heartbeats,
        row.lastSeenAt ≤ row'.lastSeenAt := by
  have hsame : ∀ row ∈ store.heartbeats, ∃ row' ∈ store.heartbeats,
      row.lastSeenAt ≤ row'.lastSeenAt := fun row hrow => ⟨row, hrow, le_refl _⟩
  cases c with
  | now | nowIso | selectLatest | cacheGet => exact ⟨rfl, hsame⟩
  | upsertHeartbeat heartbeat =>
    unfold serveHeartbeats
    dsimp only
    split
    · exact ⟨rfl, hsame⟩
    · exact ⟨rfl, fun row hrow => upsertHeartbeat_keeps hrow heartbeat⟩
  | cacheSetIfNewer heartbeat =>
    unfold serveHeartbeats
    dsimp only
    split
    · exact ⟨rfl, hsame⟩
    · exact ⟨rfl, hsame⟩

/-- What a request knows stays true over each call. -/
theorem OverviewNote.Knows.serve (h : note.Knows store) (hclock : store.clock ≤ moment.time)
    (c : HeartbeatStep) : note.Knows (serveHeartbeats collation moment store c).1 := by
  obtain ⟨htime, hkeeps⟩ := serveHeartbeats_keeps collation moment store c
  constructor
  · intro t ht
    rw [htime]
    linarith [h.dated t ht]
  · intro t ht
    rw [htime]
    exact le_trans (h.readAt t ht) hclock
  · intro heartbeat hlatest
    exact (h.latest heartbeat hlatest).mono hkeeps

/-- What befalls the entry does not make it newer. -/
theorem EntryFate.apply_eq {entry : Option CacheEntry} {fate : EntryFate}
    {heartbeat : WorkerHeartbeat} (h : fate.apply entry = some (.heartbeat heartbeat)) :
    entry = some (.heartbeat heartbeat) := by
  cases fate with
  | lives => exact h
  | expires => cases h
  | corrupted => cases h

/-- The cache has what it had, or the heartbeat that came in. -/
theorem setIfNewer_eq {incoming heartbeat : WorkerHeartbeat} {entry : Option CacheEntry}
    (h : setIfNewer incoming entry = .heartbeat heartbeat) :
    entry = some (.heartbeat heartbeat) ∨ heartbeat = incoming := by
  unfold setIfNewer at h
  split at h
  · split at h
    · exact Or.inl (by rw [CacheEntry.heartbeat.inj h])
    · exact Or.inr (CacheEntry.heartbeat.inj h).symm
  · exact Or.inr (CacheEntry.heartbeat.inj h).symm
  · exact Or.inr (CacheEntry.heartbeat.inj h).symm

theorem HeartbeatStore.Sound.meet (h : store.Sound) (hclock : store.clock ≤ moment.time) :
    (store.meet moment).Sound where
  cached heartbeat hentry := h.cached heartbeat (EntryFate.apply_eq hentry)
  dated row hrow := by
    show row.lastSeenAt ≤ moment.time + maxFutureSkewMs
    linarith [h.dated row hrow]

/-- A call leaves the store sound. -/
theorem HeartbeatStore.Sound.serve (h : store.Sound) (hclock : store.clock ≤ moment.time)
    (hknows : note.Knows store) {c : HeartbeatStep} (hasks : heartbeatContract.asks note c) :
    (serveHeartbeats collation moment store c).1.Sound := by
  have hmet := h.meet hclock
  cases c with
  | now | nowIso | selectLatest | cacheGet => exact hmet
  | upsertHeartbeat heartbeat =>
    unfold serveHeartbeats
    dsimp only
    split
    · exact hmet
    · constructor
      · intro cached hentry
        exact (hmet.cached cached hentry).mono fun row hrow => upsertHeartbeat_keeps hrow heartbeat
      · intro row hrow
        -- a new heartbeat was dated before this step, by a clock that was not far ahead
        rcases upsertHeartbeat_lastSeenAt hrow with ⟨row', hrow', heq⟩ | heq
        · rw [heq]
          exact hmet.dated row' hrow'
        · show row.lastSeenAt ≤ moment.time + maxFutureSkewMs
          linarith [hknows.dated _ hasks]
  | cacheSetIfNewer heartbeat =>
    unfold serveHeartbeats
    dsimp only
    split
    · exact hmet
    · constructor
      · intro cached hentry
        rcases setIfNewer_eq (Option.some.inj hentry) with hold | rfl
        · exact hmet.cached cached hold
        · exact hknows.latest cached hasks
      · exact hmet.dated

theorem OverviewNote.Knows.stamp (h : note.Knows store) (htime : time ≤ store.clock) :
    (note.stamp time).Knows store := by
  unfold OverviewNote.stamp
  split
  · refine ⟨h.dated, fun t ht => ?_, h.latest⟩
    cases ht
    exact htime
  · exact ⟨h.dated, h.readAt, h.latest⟩

/-- The row of a read is in the table that was read. -/
theorem reported_latest {heartbeat : WorkerHeartbeat}
    (h : latestHeartbeat collation store.heartbeats = some heartbeat) :
    store.Reported heartbeat.lastSeenAt :=
  ⟨heartbeat, (latestHeartbeat_eq_some h).1, le_refl _⟩

/-- A request knows what its call was answered. -/
theorem OverviewNote.Knows.step (h : note.Knows store) (hclock : store.clock ≤ moment.time)
    (hdated : moment.dated ≤ moment.time + maxFutureSkewMs) (c : HeartbeatStep) :
    (heartbeatNote collation note store c (serveHeartbeats collation moment store c).2
      (serveHeartbeats collation moment store c).1).Knows
        (serveHeartbeats collation moment store c).1 := by
  have hserve : note.Knows (serveHeartbeats collation moment store c).1 := h.serve hclock c
  cases c with
  | now => exact hserve.stamp (le_refl moment.time)
  | nowIso =>
    refine ⟨fun t ht => ?_, hserve.readAt, hserve.latest⟩
    cases ht
    exact hdated
  | selectLatest | cacheGet => exact ⟨hserve.dated, hserve.readAt, fun _ => reported_latest⟩
  | upsertHeartbeat | cacheSetIfNewer => exact hserve

/-- The store answers as the requests rely on it. -/
theorem heartbeatContract_learns (h : store.Sound) (hclock : store.clock ≤ moment.time)
    (hknows : note.Knows store) (c : HeartbeatStep) :
    heartbeatContract.learns note c (serveHeartbeats collation moment store c).2
      (heartbeatNote collation note store c (serveHeartbeats collation moment store c).2
        (serveHeartbeats collation moment store c).1) := by
  cases c with
  | now =>
    refine ⟨rfl, fun t ht => le_trans (hknows.readAt t ht) hclock, fun heartbeat hlatest => ?_⟩
    obtain ⟨row, hrow, hle⟩ := hknows.latest heartbeat hlatest
    exact le_trans hle ((h.meet hclock).dated row hrow)
  | nowIso => rfl
  | selectLatest =>
    refine ⟨_, rfl, fun heartbeat hfound => ?_⟩
    cases hfate : moment.operation with
    | answered =>
      simp only [serveHeartbeats, hfate, OperationFate.answer] at hfound
      exact (Except.ok.inj hfound).symm
    | garbled | unanswered | lost =>
      simp only [serveHeartbeats, hfate, OperationFate.answer] at hfound
      cases hfound
  | cacheGet =>
    refine ⟨_, rfl, fun heartbeat hcached => ?_⟩
    cases hfate : moment.operation with
    | answered =>
      simp only [serveHeartbeats, hfate, OperationFate.read, Except.ok.injEq,
        Option.bind_eq_some_iff] at hcached
      obtain ⟨entry, hentry, hparse⟩ := hcached
      cases entry with
      | heartbeat value =>
        cases hparse
        obtain ⟨row, hrow, hle⟩ := (h.meet hclock).cached heartbeat hentry
        obtain ⟨latest, hlatest, hle'⟩ := latestHeartbeat_of_mem hrow
        exact ⟨latest, hlatest, le_trans hle hle'⟩
      | unparsable => cases hparse
    | garbled | unanswered | lost =>
      simp only [serveHeartbeats, hfate, OperationFate.read] at hcached
      cases hcached
  | upsertHeartbeat | cacheSetIfNewer => rfl

end Serve

/-! ## What an overview shows -/

/-- The overview shows a worker online as the table alone would, exactly if it is not overtaken. -/
def OverviewAgrees (snapshot : WorkerStatus) (note : OverviewNote) (worker : WorkerStatus) : Prop :=
  ∃ now, note.normalizedAt = some now ∧
    (worker.online = (note.tableStatus snapshot now).online ↔ note.overtaken = false)

/-- Where the heartbeat of a read is from. -/
inductive HeartbeatSource (note : OverviewNote) (readAt : Instant) : Option WorkerHeartbeat → Prop
  | table (stale : ∀ cached, note.cached = some cached → isFreshHeartbeat cached readAt = false) :
      HeartbeatSource note readAt note.latest
  | cache {cached row : WorkerHeartbeat} (hcached : note.cached = some cached)
      (hlatest : note.latest = some row) (fresh : isFreshHeartbeat cached readAt = true)
      (le : cached.lastSeenAt ≤ row.lastSeenAt) : HeartbeatSource note readAt (some cached)

section Programs

variable {hasCache : Bool} {note : OverviewNote} {readAt now : Instant} {snapshot : WorkerStatus}

theorem online_resolved (snapshot : WorkerStatus) (lastSeenAt now : Instant) :
    (normalizeOverviewStatus (resolveWorkerHeartbeat snapshot (some lastSeenAt)) now).online =
      (decide (-30000 ≤ now - lastSeenAt) && decide (now - lastSeenAt ≤ 90000)) := rfl

/-- The flag of a heartbeat that is not ahead of the clock says that it is not too old. -/
theorem online_iff (snapshot : WorkerStatus) {lastSeenAt : Instant} (hahead : lastSeenAt ≤ now + maxFutureSkewMs) :
    (normalizeOverviewStatus (resolveWorkerHeartbeat snapshot (some lastSeenAt)) now).online = true ↔
      now ≤ lastSeenAt + maxHeartbeatAgeMs := by
  unfold maxFutureSkewMs at hahead
  rw [online_resolved, Bool.and_eq_true, decide_eq_true_eq, decide_eq_true_eq]
  unfold maxHeartbeatAgeMs
  constructor
  · rintro ⟨-, hage⟩
    linarith
  · intro hage
    exact ⟨by linarith, by linarith⟩

/-- An overview agrees with the heartbeat that it was made of. -/
theorem agrees_of_source {heartbeat : Option WorkerHeartbeat}
    (hsource : HeartbeatSource note readAt heartbeat) (hread : note.readAt = some readAt)
    (hnow : note.normalizedAt = some now)
    (hahead : ∀ row, note.latest = some row → row.lastSeenAt ≤ now + maxFutureSkewMs) :
    OverviewAgrees snapshot note (normalizeOverviewStatus
      (resolveWorkerHeartbeat snapshot (heartbeat.map WorkerHeartbeat.lastSeenAt)) now) := by
  refine ⟨now, hnow, ?_⟩
  cases hsource with
  | table stale =>
    refine iff_of_true rfl ?_
    unfold OverviewNote.overtaken
    split
    · next cached latest read normalized hcached hlatest hread' hnow' =>
      rw [hread] at hread'
      cases hread'
      rw [stale cached hcached]
      rfl
    · rfl
  | @cache cached row hcached hlatest fresh le =>
    have hrow := hahead row hlatest
    have hflag := online_iff snapshot (le_trans le hrow)
    have hflag' := online_iff snapshot hrow
    have hovertaken : note.overtaken = true ↔
        cached.lastSeenAt + maxHeartbeatAgeMs < now ∧ now ≤ row.lastSeenAt + maxHeartbeatAgeMs := by
      unfold OverviewNote.overtaken
      rw [hcached, hlatest, hread, hnow]
      simp [fresh]
    rw [← Bool.not_eq_true, hovertaken]
    unfold OverviewNote.tableStatus
    rw [hlatest]
    rw [Option.map_some, Option.map_some, Bool.eq_iff_iff, hflag, hflag', not_and, not_le]
    constructor
    · intro hiff hlate
      exact not_le.mp fun hrow => absurd (hiff.mpr hrow) (not_le.mpr hlate)
    · intro hnot
      refine ⟨fun hcached => by linarith, fun hrow => ?_⟩
      exact le_of_not_gt fun hlate => absurd hrow (not_le.mpr (hnot hlate))

open Prog (Meets)

/-- What is put into the cache was read from the table. -/
theorem cacheFreshHeartbeat_meets {heartbeat : Option WorkerHeartbeat}
    {Q : OverviewNote → Unit → Prop} (hlatest : note.latest = heartbeat) (hQ : Q note ()) :
    Meets heartbeatContract Q note (cacheFreshHeartbeat hasCache heartbeat now) := by
  unfold cacheFreshHeartbeat
  split
  · exact hQ
  · split
    · refine ⟨hlatest, fun _ note' hnote => ?_⟩
      rw [show note' = note from hnote]
      exact hQ
    · exact hQ

/-- A heartbeat of the table is taken where the cache has no fresh one. -/
theorem readTableHeartbeat_meets
    (stale : ∀ cached, note.cached = some cached → isFreshHeartbeat cached readAt = false)
    (hread : note.readAt = some readAt) :
    Meets heartbeatContract
      (fun note reply => note.readAt = some readAt ∧
        ∀ heartbeat, reply = .ok heartbeat → HeartbeatSource note readAt heartbeat)
      note (readTableHeartbeat hasCache readAt) := by
  refine Prog.Meets.perform trivial ?_
  rintro found note' ⟨latest, rfl, hfound⟩
  cases found with
  | error error => exact ⟨hread, fun _ h => by cases h⟩
  | ok heartbeat =>
    rw [hfound heartbeat rfl]
    refine Prog.Meets.bind (cacheFreshHeartbeat_meets rfl ?_)
    refine ⟨hread, fun heartbeat h => ?_⟩
    cases h
    exact .table stale

/-- A heartbeat that is read comes from the cache or the table. -/
theorem readLatestWorkerHeartbeat_meets (hcached : note.cached = none)
    (hread : note.readAt = some readAt) :
    Meets heartbeatContract
      (fun note reply => note.readAt = some readAt ∧
        ∀ heartbeat, reply = .ok heartbeat → HeartbeatSource note readAt heartbeat)
      note (readLatestWorkerHeartbeat hasCache readAt) := by
  unfold readLatestWorkerHeartbeat cachedHeartbeat
  cases hasCache with
  | false => exact readTableHeartbeat_meets (fun cached h => by rw [hcached] at h; cases h) hread
  | true =>
    refine Prog.Meets.perform trivial ?_
    rintro reply note' ⟨latest, rfl, hahead⟩
    rcases reply with error | _ | cached
    · exact readTableHeartbeat_meets (fun _ h => by cases h) hread
    · exact readTableHeartbeat_meets (fun _ h => by cases h) hread
    · obtain ⟨row, hrow, hle⟩ := hahead cached rfl
      show Meets heartbeatContract _ _
        (if isFreshHeartbeat cached readAt then _ else readTableHeartbeat true readAt)
      split
      · next hfresh =>
        refine ⟨hread, fun heartbeat h => ?_⟩
        cases h
        exact .cache rfl hrow hfresh hle
      · next hstale =>
        refine readTableHeartbeat_meets (fun other h => ?_) hread
        cases h
        exact Bool.eq_false_iff.mpr hstale

/-- An overview agrees with what its request has read. -/
theorem getOverview_meets (hasCache : Bool) (snapshot : WorkerStatus) :
    Meets heartbeatContract
      (fun note reply => ∀ worker, reply = .ok worker → OverviewAgrees snapshot note worker)
      .blank (getOverview hasCache snapshot) := by
  refine Prog.Meets.perform trivial ?_
  rintro readAt note ⟨rfl, -, -⟩
  refine Prog.Meets.bind (Prog.Meets.mono ?_ (readLatestWorkerHeartbeat_meets rfl rfl))
  rintro note reply ⟨hread, hsource⟩
  cases reply with
  | error error => exact fun _ h => by cases h
  | ok heartbeat =>
    refine Prog.Meets.perform trivial ?_
    rintro now note' ⟨rfl, -, hahead⟩ worker h
    cases h
    have hstamp : note.stamp now = { note with normalizedAt := some now } := by
      unfold OverviewNote.stamp
      rw [hread]
    rw [hstamp]
    refine agrees_of_source ?_ hread rfl hahead
    cases hsource heartbeat rfl with
    | table stale => exact .table stale
    | cache hcached hlatest fresh le => exact .cache hcached hlatest fresh le

/-- A heartbeat that is recorded keeps to the contract. -/
theorem recordHeartbeat_meets (hasCache : Bool) (workerId details : String) :
    Meets heartbeatContract (fun _ _ => True) .blank (recordHeartbeat hasCache workerId details) := by
  refine Prog.Meets.perform trivial ?_
  rintro timestamp note rfl
  refine Prog.Meets.perform rfl ?_
  rintro written note rfl
  cases written with
  | error error => trivial
  | ok _ =>
    refine Prog.Meets.perform trivial ?_
    rintro found note ⟨latest, rfl, hfound⟩
    cases found with
    | error error => trivial
    | ok heartbeat =>
      refine Prog.Meets.perform trivial ?_
      rintro current note ⟨rfl, -, -⟩
      exact Prog.Meets.bind (cacheFreshHeartbeat_meets (hfound heartbeat rfl).symm trivial)

/-- What the note of an ended request says. -/
def HeartbeatRequest.Ends (request : HeartbeatRequest) (note : OverviewNote)
    (reply : Except ErrorText HeartbeatReply) : Prop :=
  match request with
  | recordHeartbeat _ _ => True
  | getOverview snapshot =>
    ∀ worker, reply = .ok (.overview worker) → OverviewAgrees snapshot note worker

theorem program_meets (hasCache : Bool) (request : HeartbeatRequest) :
    Meets heartbeatContract request.Ends .blank (request.program hasCache) := by
  cases request with
  | recordHeartbeat workerId details =>
    refine Prog.Meets.bind (Prog.Meets.mono ?_ (recordHeartbeat_meets hasCache workerId details))
    intro note reply _
    cases reply <;> trivial
  | getOverview snapshot =>
    refine Prog.Meets.bind (Prog.Meets.mono ?_ (getOverview_meets hasCache snapshot))
    intro note reply hagrees
    cases reply with
    | error error => exact fun _ h => by cases h
    | ok worker =>
      intro other h
      cases h
      exact hagrees worker rfl

end Programs

/-! ## Whole runs -/

/-- What holds in every timely run. -/
def heartbeatOutline (collation : Collation) (requests : ℕ → Option (Bool × HeartbeatRequest)) :
    ProofOutline (ι := ℕ) (α := Except ErrorText HeartbeatReply) (serveHeartbeats collation)
      (heartbeatNote collation) :=
  ProofOutline.ofContract heartbeatContract
    (fun i note reply => ∀ r, requests i = some r → r.2.Ends note reply)
    HeartbeatRun.Timely HeartbeatStore.Sound OverviewNote.Knows
    (fun _ _ _ c htimely hsound hknows hasks =>
      ⟨hsound.serve htimely.1 hknows hasks, hknows.step htimely.1 htimely.2 c,
        heartbeatContract_learns hsound htimely.1 hknows c⟩)
    (fun _ _ _ c _ htimely _ _ _ hother => hother.serve htimely.1 c)

section Runs

variable {collation : Collation} {store : HeartbeatStore}
  {requests : ℕ → Option (Bool × HeartbeatRequest)} {steps : List (ℕ × HeartbeatMoment)}

/-- At the start nothing is known. -/
theorem heartbeatOutline_start (collation : Collation)
    (requests : ℕ → Option (Bool × HeartbeatRequest)) (hstore : store.Sound) :
    (heartbeatOutline collation requests).Holds (HeartbeatRun.start store requests) := by
  refine ⟨hstore, fun i p hp => ?_⟩
  obtain ⟨r, hr, rfl⟩ := Option.map_eq_some_iff.mp hp
  have hblank : OverviewNote.blank.Knows store :=
    ⟨(fun _ h => by cases h), (fun _ h => by cases h), (fun _ h => by cases h)⟩
  refine ⟨hblank, (program_meets r.1 r.2).mono fun note reply hends other hother => ?_⟩
  rw [hr] at hother
  cases hother
  exact hends

/-- While it lives, an entry is replaced by none that is older. -/
theorem serveHeartbeats_entry (collation : Collation) {moment : HeartbeatMoment} {heartbeat : WorkerHeartbeat}
    (hlives : moment.entry = .lives) (hentry : store.cache = some (.heartbeat heartbeat))
    (c : HeartbeatStep) :
    ∃ heartbeat', (serveHeartbeats collation moment store c).1.cache = some (.heartbeat heartbeat') ∧
      heartbeat.lastSeenAt ≤ heartbeat'.lastSeenAt := by
  have hmet : (store.meet moment).cache = some (.heartbeat heartbeat) := by
    unfold HeartbeatStore.meet
    rw [hlives]
    exact hentry
  cases c with
  | now | nowIso | selectLatest | cacheGet => exact ⟨heartbeat, hmet, le_refl _⟩
  | upsertHeartbeat other =>
    unfold serveHeartbeats
    dsimp only
    split
    · exact ⟨heartbeat, hmet, le_refl _⟩
    · exact ⟨heartbeat, hmet, le_refl _⟩
  | cacheSetIfNewer incoming =>
    unfold serveHeartbeats
    dsimp only
    split
    · exact ⟨heartbeat, hmet, le_refl _⟩
    · rw [hmet, setIfNewer]
      dsimp only
      split
      · exact ⟨heartbeat, rfl, le_refl _⟩
      · next hnot =>
        push Not at hnot
        exact ⟨incoming, rfl, hnot.1⟩

/-- The entry that the cache holds. -/
def HeartbeatRun.entry (w : HeartbeatRun) : Option WorkerHeartbeat :=
  w.pool.shared.cache.bind CacheEntry.parse

theorem entry_eq_some {w : HeartbeatRun} {heartbeat : WorkerHeartbeat} :
    w.entry = some heartbeat ↔ w.pool.shared.cache = some (.heartbeat heartbeat) := by
  unfold HeartbeatRun.entry
  rcases w.pool.shared.cache with _ | value | _ <;> simp [CacheEntry.parse]

/-- While the entry of the cache lives, it goes forward. -/
theorem entry_run {w : HeartbeatRun} {heartbeat : WorkerHeartbeat} (hentry : w.entry = some heartbeat)
    (hlives : ∀ s ∈ steps, s.2.entry = .lives) :
    ∃ heartbeat', ((heartbeatMachine collation).run w steps).entry = some heartbeat' ∧
      heartbeat.lastSeenAt ≤ heartbeat'.lastSeenAt := by
  induction steps generalizing w heartbeat with
  | nil => exact ⟨heartbeat, hentry, le_refl _⟩
  | cons s steps ih =>
    obtain ⟨i, moment⟩ := s
    have hnext : ∃ heartbeat', ((heartbeatMachine collation).next w (i, moment)).entry =
        some heartbeat' ∧ heartbeat.lastSeenAt ≤ heartbeat'.lastSeenAt := by
      by_cases hcall : ∃ c k, w.pool.procs i = some (.call c k)
      · obtain ⟨c, k, hcall⟩ := hcall
        have hshared : ((heartbeatMachine collation).next w (i, moment)).pool.shared =
            (serveHeartbeats collation moment w.pool.shared c).1 := Watched.step_shared hcall moment
        obtain ⟨heartbeat', hserve, hle⟩ := serveHeartbeats_entry collation
          (hlives _ List.mem_cons_self) (entry_eq_some.mp hentry) c
        exact ⟨heartbeat', entry_eq_some.mpr (by rw [hshared]; exact hserve), hle⟩
      · push Not at hcall
        have hsame : (heartbeatMachine collation).next w (i, moment) = w :=
          Watched.step_idle moment hcall
        exact ⟨heartbeat, by rw [hsame]; exact hentry, le_refl _⟩
    obtain ⟨heartbeat', hnext, hle⟩ := hnext
    obtain ⟨final, hfinal, hle'⟩ := ih hnext fun s hs => hlives s (List.mem_cons_of_mem _ hs)
    exact ⟨final, hfinal, le_trans hle hle'⟩

/--
**An overview shows a worker online as the table alone would, exactly if it is not overtaken, and
the entry of the cache never goes back while it lives.**
-/
theorem overview_agrees (hstore : store.Sound)
    (hsteps : (heartbeatMachine collation).Admits HeartbeatRun.Timely
      (HeartbeatRun.start store requests) steps) :
    (∀ i hasCache snapshot worker, requests i = some (hasCache, .getOverview snapshot) →
      ((heartbeatMachine collation).run (HeartbeatRun.start store requests) steps).result i =
        some (.ok (.overview worker)) →
      OverviewAgrees snapshot
        (((heartbeatMachine collation).run (HeartbeatRun.start store requests) steps).notes i) worker) ∧
    (∀ pre mid post heartbeat, steps = pre ++ mid ++ post →
      (∀ s ∈ mid, s.2.entry = EntryFate.lives) →
      ((heartbeatMachine collation).run (HeartbeatRun.start store requests) pre).entry = some heartbeat →
      ∃ heartbeat',
        ((heartbeatMachine collation).run (HeartbeatRun.start store requests) (pre ++ mid)).entry =
          some heartbeat' ∧ heartbeat.lastSeenAt ≤ heartbeat'.lastSeenAt) := by
  constructor
  · intro i hasCache snapshot worker hrequest hresult
    have hholds := ProofOutline.run (heartbeatOutline_start collation requests hstore) hsteps
    exact ProofOutline.ofContract_result hholds hresult _ hrequest worker rfl
  · intro pre mid post heartbeat hsplit hlives hentry
    rw [Machine.run_append]
    exact entry_run hentry hlives

end Runs

/-- An overview that looks at one clock is not overtaken. -/
theorem overtaken_of_one_clock {note : OverviewNote} (h : note.normalizedAt = note.readAt) :
    note.overtaken = false := by
  unfold OverviewNote.overtaken
  split
  · next cached latest readAt now hcached hlatest hread hnow =>
    have hsame : now = readAt := by simpa [hread, hnow] using h
    subst hsame
    have hlate : isFreshHeartbeat cached now = true →
        ¬ cached.lastSeenAt + maxHeartbeatAgeMs < now := by
      intro hfresh
      simp only [isFreshHeartbeat, Bool.and_eq_true, decide_eq_true_eq] at hfresh
      linarith [hfresh.2]
    cases hfresh : isFreshHeartbeat cached now with
    | false => rfl
    | true => simp [hlate hfresh]
  · rfl

/-! ## Sample runs -/

namespace LostCacheWrite

/-- 2026-01-05T08:00:00.000Z -/
def firstReport : Instant := 1767600000000

def sinceStart (milliseconds : Int) : HeartbeatMoment where
  time := firstReport + milliseconds
  dated := firstReport + milliseconds
  entry := .lives
  operation := .answered

/-- One worker reports twice, and an overview is shown. -/
def requests : ℕ → Option (Bool × HeartbeatRequest)
  | 0 | 1 => some (true, .recordHeartbeat "inbox-worker-1" "{}")
  | 2 => some (true, .getOverview ⟨none, false⟩)
  | _ => none

def store : HeartbeatStore := ⟨∅, none, firstReport⟩

theorem store_sound : store.Sound := ⟨(fun _ h => by cases h), fun _ h => by cases h⟩

/-- The second report comes a minute later, and is lost on its way to the cache. -/
def reports : List (ℕ × HeartbeatMoment) :=
  List.replicate 5 (0, sinceStart 0) ++ List.replicate 4 (1, sinceStart 60000) ++
    [(1, { sinceStart 60000 with operation := .lost })]

/-- The overview reads the cache 90 seconds after the first report, and ends at `milliseconds`. -/
def steps (milliseconds : Int) : List (ℕ × HeartbeatMoment) :=
  reports ++ [(2, sinceStart 90000), (2, sinceStart 90000), (2, sinceStart milliseconds)]

def runUntil (milliseconds : Int) : HeartbeatRun :=
  (heartbeatMachine codePoints).run (HeartbeatRun.start store requests) (steps milliseconds)

/-- A millisecond between the two clocks takes the worker offline, which the table has online. -/
theorem overview_differs :
    (heartbeatMachine codePoints).Admits HeartbeatRun.Timely (HeartbeatRun.start store requests)
        (steps 90001) ∧
      (runUntil 90001).result 2 = some (.ok (.overview ⟨some firstReport, false⟩)) ∧
      ((runUntil 90001).notes 2).tableStatus ⟨none, false⟩ (firstReport + 90001) =
        ⟨some (firstReport + 60000), true⟩ := by
  refine ⟨?_, ?_, ?_⟩ <;> decide +kernel

/-- Within the same millisecond it shows the worker online, as the table does. -/
theorem overview_agrees_in_time :
    OverviewAgrees ⟨none, false⟩ ((runUntil 90000).notes 2) ⟨some firstReport, true⟩ :=
  (overview_agrees store_sound (by decide +kernel)).1 2 true ⟨none, false⟩
    ⟨some firstReport, true⟩ rfl (by decide +kernel)

end LostCacheWrite

end InboxServer
