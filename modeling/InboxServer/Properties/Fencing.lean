import InboxServer.Properties.Jobs
import InboxServer.Properties.Sample

/-!
# What a claim protects

A claim carries no token: `finishJob` names the job id, so it is the job id that a claim fences off,
not the worker.

* `claim_fences` — after a claim under a job id, finishes under older job ids change nothing, and
  the key cannot be claimed again within ten minutes unless the job id was finished
* `redelivery_unfenced` — two workers that claimed under one job id are not told apart
-/

namespace InboxServer

open Infra

variable {env : Env} {backend : Backend}

/-- The input claims the key under the job id, in the state it meets. -/
def ClaimsAs (env : Env) (backend : Backend) (db : Db) (input : Instant × JobCall)
    (job : QueueJob) : Prop :=
  ∃ iv body, input.2 = .claim iv body ∧ parseQueueJob env.zod body = some job ∧
    ((jobMachine env backend).reply db input).isClaimed = true

/-! ## One call -/

theorem jobMachine_claim (env : Env) (backend : Backend) (db : Db) (now : Instant) (iv : Bytes)
    (body : Json) :
    ∃ result, ClaimRows env now body db result ∧
      (jobMachine env backend).next db (now, .claim iv body) = result.1 ∧
      (jobMachine env backend).reply db (now, .claim iv body) = .claim result.2 :=
  ⟨_, (claimJob_outcome backend env now iv body db).rows, rfl, rfl⟩

theorem jobMachine_finish (env : Env) (backend : Backend) (db : Db) (now : Instant)
    (jobId : String) (input : JobResult) :
    ∃ result, FinishRows now jobId input db result ∧
      (jobMachine env backend).next db (now, .finish jobId input) = result.1 ∧
      (jobMachine env backend).reply db (now, .finish jobId input) = .finish result.2 :=
  ⟨_, (finishJob_outcome backend now jobId input db).rows, rfl, rfl⟩

/-- A claim that succeeds leaves its key processing under its job id. -/
theorem ClaimsAs.row {db : Db} {input : Instant × JobCall} {job : QueueJob}
    (h : ClaimsAs env backend db input job) :
    ∃ row, jobRow job.dedupeKey ((jobMachine env backend).next db input) = some row ∧
      row.jobId = job.jobId ∧ row.status = .processing ∧ row.updatedAt = input.1 := by
  obtain ⟨now, call⟩ := input
  obtain ⟨iv, body, rfl, hparse, hclaimed⟩ := h
  obtain ⟨result, hrows, hnext, hreply⟩ := jobMachine_claim env backend db now iv body
  rw [hreply] at hclaimed
  rw [hnext]
  cases hrows with
  | @refused reply hnot =>
    cases reply with
    | error text => cases hclaimed
    | ok r =>
      have hfalse := hnot r rfl
      rw [show r.isClaimed = true from hclaimed] at hfalse
      cases hfalse
  | @claimed job' db' n parse claimable rows =>
    obtain rfl : job' = job := Option.some.inj (parse.symm.trans hparse)
    refine ⟨_, (rows _).trans (if_pos rfl), ?_⟩
    cases jobRow job'.dedupeKey db <;> exact ⟨rfl, rfl, rfl⟩

/-- A call that is no claim of the key keeps the job id of its row. -/
theorem jobId_next {db : Db} {input : Instant × JobCall} {key : String} {row : JobRow}
    (hrow : jobRow key db = some row)
    (hother : ∀ job, ClaimsAs env backend db input job → job.dedupeKey ≠ key) :
    ∃ row', jobRow key ((jobMachine env backend).next db input) = some row' ∧
      row'.jobId = row.jobId := by
  obtain ⟨now, call⟩ := input
  cases call with
  | claim iv body =>
    obtain ⟨result, hrows, hnext, hreply⟩ := jobMachine_claim env backend db now iv body
    rw [hnext]
    cases hrows with
    | refused _ => exact ⟨row, hrow, rfl⟩
    | @claimed job db' n parse claimable rows =>
      have hkey : job.dedupeKey ≠ key := hother job ⟨iv, body, rfl, parse, by rw [hreply]; rfl⟩
      exact ⟨row, by rw [rows, if_neg hkey]; exact hrow, rfl⟩
  | finish jobId result =>
    obtain ⟨result, hrows, hnext, -⟩ := jobMachine_finish env backend db now jobId result
    rw [hnext]
    cases hrows with
    | threw => exact ⟨row, hrow, rfl⟩
    | settled _ _ _ => exact ⟨row, hrow, rfl⟩
    | @finished r db' settlement lookup id live finished rows hsettle =>
      by_cases hk : r.dedupeKey = key
      · subst hk
        obtain rfl : r = row := Option.some.inj (lookup.symm.trans hrow)
        exact ⟨_, (rows _).trans (if_pos rfl), JobRow.finish_jobId _ _ _⟩
      · exact ⟨row, by rw [rows, if_neg hk]; exact hrow, rfl⟩

/-! ## The calls after a claim -/

/-- One of the calls claims the key under the job id, run from `db`. -/
def ClaimedDuring (env : Env) (backend : Backend) (db : Db) (calls : List (Instant × JobCall))
    (key jobId : String) : Prop :=
  ∃ pre c post job, calls = pre ++ c :: post ∧
    ClaimsAs env backend ((jobMachine env backend).run db pre) c job ∧
    job.dedupeKey = key ∧ job.jobId = jobId

theorem ClaimedDuring.snoc {db : Db} {calls : List (Instant × JobCall)} {key jobId : String}
    (h : ClaimedDuring env backend db calls key jobId) (c : Instant × JobCall) :
    ClaimedDuring env backend db (calls ++ [c]) key jobId := by
  obtain ⟨pre, a, post, job, rfl, hclaims, hkey, hid⟩ := h
  exact ⟨pre, a, post ++ [c], job, by simp, hclaims, hkey, hid⟩

/-- The row of a key is bound to the job id that it had, or to one that was claimed since. -/
theorem jobId_run {db : Db} {key jobId : String} {row : JobRow} (hrow : jobRow key db = some row)
    (hid : row.jobId = jobId) (calls : List (Instant × JobCall)) :
    ∃ row', jobRow key ((jobMachine env backend).run db calls) = some row' ∧
      (row'.jobId = jobId ∨ ClaimedDuring env backend db calls key row'.jobId) := by
  induction calls using List.reverseRecOn with
  | nil => exact ⟨row, hrow, Or.inl hid⟩
  | append_singleton calls c ih =>
    obtain ⟨row', hrow', hor⟩ := ih
    rw [Machine.run_snoc]
    by_cases hclaim : ∃ job, ClaimsAs env backend ((jobMachine env backend).run db calls) c job ∧
        job.dedupeKey = key
    · obtain ⟨job, hclaims, rfl⟩ := hclaim
      obtain ⟨r, hr, hrid, -, -⟩ := hclaims.row
      exact ⟨r, hr, Or.inr ⟨calls, c, [], job, rfl, hclaims, rfl, hrid.symm⟩⟩
    · have hother : ∀ job, ClaimsAs env backend ((jobMachine env backend).run db calls) c job →
          job.dedupeKey ≠ key := fun job hj hk => hclaim ⟨job, hj, hk⟩
      obtain ⟨r, hr, hrid⟩ := jobId_next hrow' hother
      refine ⟨r, hr, ?_⟩
      rw [hrid]
      exact hor.imp_right fun h => h.snoc c

/-- A row that is processed cannot be claimed before it goes stale. -/
theorem not_claimable_of_fresh {now t : Instant} {row : JobRow} (hs : row.status = .processing)
    (ht : row.updatedAt = t) (hnow : now ≤ t + 600000) : ¬ row.Claimable now := by
  intro hc
  have hstale := hc.free hs
  simp only [isStale, decide_eq_true_eq, ht] at hstale
  linarith

/-- Without a finish of its job id, a claimed row stays as it is until it goes stale. -/
theorem fresh_next {db : Db} {input : Instant × JobCall} {key jobId : String} {t : Instant}
    {row : JobRow} (hrow : jobRow key db = some row) (hid : row.jobId = jobId)
    (hs : row.status = .processing) (ht : row.updatedAt = t) (hnow : input.1 ≤ t + 600000)
    (hfinish : ∀ result, input.2 ≠ .finish jobId result) :
    jobRow key ((jobMachine env backend).next db input) = some row := by
  obtain ⟨now, call⟩ := input
  cases call with
  | claim iv body =>
    obtain ⟨result, hrows, hnext, -⟩ := jobMachine_claim env backend db now iv body
    rw [hnext]
    cases hrows with
    | refused _ => exact hrow
    | @claimed job db' n parse claimable rows =>
      have hkey : job.dedupeKey ≠ key := by
        rintro rfl
        exact not_claimable_of_fresh hs ht hnow (claimable row hrow)
      rw [rows, if_neg hkey]
      exact hrow
  | finish other result =>
    obtain ⟨result, hrows, hnext, -⟩ := jobMachine_finish env backend db now other result
    rw [hnext]
    cases hrows with
    | threw => exact hrow
    | settled _ _ _ => exact hrow
    | @finished r db' settlement lookup id live finished rows hsettle =>
      have hk : r.dedupeKey ≠ key := by
        rintro rfl
        obtain rfl : r = row := Option.some.inj (lookup.symm.trans hrow)
        exact hfinish _ (by rw [← hid, id])
      rw [rows, if_neg hk]
      exact hrow

/-- What a claim protects the key from, over the calls that follow it. -/
structure Fences (env : Env) (backend : Backend) (db : Db) (claim : Instant × JobCall)
    (job : QueueJob) (calls : List (Instant × JobCall)) : Prop where
  /-- A finish under another job id changes the row only if that id has claimed it since. -/
  late : ∀ now jobId result, jobId ≠ job.jobId →
    ¬ ClaimedDuring env backend ((jobMachine env backend).next db claim) calls job.dedupeKey jobId →
    let after := (jobMachine env backend).run ((jobMachine env backend).next db claim) calls
    jobRow job.dedupeKey ((jobMachine env backend).next after (now, .finish jobId result)) =
      jobRow job.dedupeKey after
  /-- Within ten minutes the key is claimed again only after a finish of the job id. -/
  sole : (∀ c ∈ calls, c.1 ≤ claim.1 + 600000 ∧ ∀ result, c.2 ≠ .finish job.jobId result) →
    ∀ again job', again.1 ≤ claim.1 + 600000 →
      ClaimsAs env backend
        ((jobMachine env backend).run ((jobMachine env backend).next db claim) calls) again job' →
      job'.dedupeKey ≠ job.dedupeKey

/-- **A claim fences its key off from every older job id, for ten minutes.** -/
theorem claim_fences (env : Env) (backend : Backend) (db : Db) (claim : Instant × JobCall)
    (job : QueueJob) (h : ClaimsAs env backend db claim job) (calls : List (Instant × JobCall)) :
    Fences env backend db claim job calls where
  late := by
    intro now jobId result hne hnot
    obtain ⟨row, hrow, hid, -, -⟩ := h.row
    -- the row is still there, under the claim's id or one that claimed it since
    obtain ⟨row', hrow', hor⟩ := @jobId_run env backend _ _ _ _ hrow hid calls
    have hbound : row'.jobId ≠ jobId := by
      rintro rfl
      exact hor.elim hne hnot
    obtain ⟨outcome, hrows, hnext, -⟩ := jobMachine_finish env backend
      ((jobMachine env backend).run ((jobMachine env backend).next db claim) calls) now jobId result
    show jobRow _ ((jobMachine env backend).next _ _) = _
    rw [hnext]
    cases hrows with
    | threw => rfl
    | settled _ _ _ => rfl
    | @finished r db' settlement lookup id live finished rows hsettle =>
      have hk : r.dedupeKey ≠ job.dedupeKey := by
        intro hk
        rw [hk] at lookup
        obtain rfl : r = row' := Option.some.inj (lookup.symm.trans hrow')
        exact hbound id
      rw [rows, if_neg hk]
  sole := by
    intro hcalls again job' hagain hclaims hkey
    obtain ⟨row, hrow, hid, hs, ht⟩ := h.row
    -- without a finish of its own the row stays fresh for ten minutes
    have hstays : jobRow job.dedupeKey
        ((jobMachine env backend).run ((jobMachine env backend).next db claim) calls) =
        some row := by
      clear hclaims
      induction calls using List.reverseRecOn with
      | nil => exact hrow
      | append_singleton calls c ih =>
        have hc := hcalls c (by simp)
        rw [Machine.run_snoc]
        exact fresh_next (ih fun a ha => hcalls a (by simp [ha])) hid hs ht hc.1 hc.2
    obtain ⟨iv, body, hcall, hparse, hclaimed⟩ := hclaims
    obtain ⟨now, call⟩ := again
    obtain rfl : call = .claim iv body := hcall
    obtain ⟨result, hrows, -, hreply⟩ := jobMachine_claim env backend
      ((jobMachine env backend).run ((jobMachine env backend).next db claim) calls) now iv body
    rw [hreply] at hclaimed
    cases hrows with
    | @refused reply hnot =>
      cases reply with
      | error text => cases hclaimed
      | ok r =>
        have hfalse := hnot r rfl
        rw [show r.isClaimed = true from hclaimed] at hfalse
        cases hfalse
    | @claimed j db' n parse claimable rows =>
      obtain rfl : j = job' := Option.some.inj (parse.symm.trans hparse)
      exact not_claimable_of_fresh hs ht hagain (claimable row (by rw [hkey]; exact hstays))

/-- The first claim of the sample job, on empty tables. -/
def firstClaim : Instant × JobCall := (0, .claim [] (Sample.textJob Sample.firstId).toJson)

theorem firstClaim_claims (backend : Backend) :
    ClaimsAs Sample.env backend ∅ firstClaim (Sample.textJob Sample.firstId) :=
  ⟨[], _, rfl, parseQueueJob_toJson (Sample.textJob_valid _ rfl), by cases backend <;> decide⟩

theorem claim_fences_firstClaim :
    Fences Sample.env .d1 ∅ firstClaim (Sample.textJob Sample.firstId)
      [(1000, .finish Sample.secondId (.done none))] :=
  claim_fences Sample.env .d1 ∅ firstClaim (Sample.textJob Sample.firstId) (firstClaim_claims .d1) _

/-! ## Workers that share a job id -/

/-- Calls with the worker that makes each. -/
abbrev WorkerCalls := List (Nat × Instant × JobCall)

/-- The state after the calls of all workers. -/
def runWorkers (env : Env) (backend : Backend) (db : Db) (calls : WorkerCalls) : Db :=
  (jobMachine env backend).run db (calls.map Prod.snd)

/-- Within ten minutes, a finish on behalf of an earlier claim of the key changes nothing. -/
def FinishesFenced (env : Env) (backend : Backend) (db : Db) (calls : WorkerCalls) : Prop :=
  ∀ pre w claim mid w' now jobId result post job,
    calls = pre ++ (w, claim) :: mid ++ (w', now, .finish jobId result) :: post →
    ClaimsAs env backend (runWorkers env backend db pre) claim job → now ≤ claim.1 + 600000 →
    w' ≠ w → (∃ t iv body, (w', t, .claim iv body) ∈ pre ∧
      ∃ job', parseQueueJob env.zod body = some job' ∧ job'.dedupeKey = job.dedupeKey) →
    let before := runWorkers env backend db (pre ++ (w, claim) :: mid)
    jobRow job.dedupeKey ((jobMachine env backend).next before (now, .finish jobId result)) =
      jobRow job.dedupeKey before

/-- Within ten minutes, the key is claimed again only after its worker has called `finishJob`. -/
def ClaimsFenced (env : Env) (backend : Backend) (db : Db) (calls : WorkerCalls) : Prop :=
  ∀ pre w claim mid w' again post job job',
    calls = pre ++ (w, claim) :: mid ++ (w', again) :: post →
    ClaimsAs env backend (runWorkers env backend db pre) claim job →
    again.1 ≤ claim.1 + 600000 → (∀ c ∈ mid, c.1 ≠ w) →
    ClaimsAs env backend (runWorkers env backend db (pre ++ (w, claim) :: mid)) again job' →
    job'.dedupeKey ≠ job.dedupeKey

/--
A message is delivered again after its claim went stale, and is claimed again under its job id. The
first worker then reports a failure, which counts against the second worker's claim and opens the
job to a third.
-/
def redelivery : WorkerCalls :=
  let claim : JobCall := .claim [] (Sample.textJob Sample.firstId).toJson
  let failure : JobResult := .failed (some .retryable) (some "timeout") (some "digest")
  [(1, 0, claim), (2, 660000, claim), (1, 661000, .finish Sample.firstId failure),
    (3, 662000, claim)]

theorem redelivery_claims (backend : Backend) :
    ClaimsAs Sample.env backend (runWorkers Sample.env backend ∅ (redelivery.take 1))
      (660000, .claim [] (Sample.textJob Sample.firstId).toJson) (Sample.textJob Sample.firstId) :=
  ⟨[], _, rfl, parseQueueJob_toJson (Sample.textJob_valid _ rfl), by cases backend <;> decide⟩

theorem redelivery_unfenced :
    (¬ FinishesFenced Sample.env .postgres ∅ redelivery ∧
        ¬ ClaimsFenced Sample.env .postgres ∅ redelivery) ∧
      ¬ FinishesFenced Sample.env .d1 ∅ redelivery ∧
        ¬ ClaimsFenced Sample.env .d1 ∅ redelivery := by
  have hparse := parseQueueJob_toJson (Sample.textJob_valid Sample.firstId rfl)
  have hearlier : ∃ t iv body, (1, t, JobCall.claim iv body) ∈ redelivery.take 1 ∧
      ∃ job', parseQueueJob Sample.env.zod body = some job' ∧
        job'.dedupeKey = (Sample.textJob Sample.firstId).dedupeKey :=
    ⟨0, [], _, List.mem_singleton.mpr rfl, _, hparse, rfl⟩
  have hfinishes : ∀ backend, ¬ FinishesFenced Sample.env backend ∅ redelivery := by
    intro backend h
    have hkept := h (redelivery.take 1) 2 _ [] 1 661000 Sample.firstId _ (redelivery.drop 3) _ rfl
      (redelivery_claims backend) (by decide) (by decide) hearlier
    cases backend <;> exact absurd hkept (by decide)
  have hclaims : ∀ backend, ¬ ClaimsFenced Sample.env backend ∅ redelivery := by
    intro backend h
    refine h (redelivery.take 1) 2 _ [redelivery[2]] 3
      (662000, .claim [] (Sample.textJob Sample.firstId).toJson) [] _ _ rfl
      (redelivery_claims backend) (by decide) (by decide)
      ⟨[], _, rfl, hparse, by cases backend <;> decide⟩ rfl
  exact ⟨⟨hfinishes _, hclaims _⟩, hfinishes _, hclaims _⟩

end InboxServer
