import InboxServer.Api.D1.Readiness
import InboxServer.Domain.JsonLiteral
import InboxServer.Properties.Sample
import InboxServer.Properties.SyncRuns

/-!
# The two reports on dead letters

* `sampled_perm` — a sample does not depend on the order in which the rows were read
* `dlq_reports_agree` — each report counts every dead letter and every dead job without one once,
  and the two are equal unless a letter names the envelope under the empty id
-/

namespace InboxServer

open Infra
open Postgres (ConsistencyCategory DlqConsistencyReport sampled)

/-! ## Samples -/

/-- `a` stands before `b` in what `sort()` makes, or is `b`. -/
def UnitsLE (a b : String) : Prop := utf16Units a ≤ utf16Units b

theorem sorted_insertionSort (ids : List String) :
    (ids.insertionSort fun a b => utf16Units a ≤ utf16Units b).Pairwise UnitsLE := by
  have htotal : Std.Total fun a b : String => utf16Units a ≤ utf16Units b :=
    ⟨fun a b => le_total (utf16Units a) (utf16Units b)⟩
  have htrans : IsTrans String fun a b => utf16Units a ≤ utf16Units b := ⟨fun _ _ _ => le_trans⟩
  exact List.pairwise_insertionSort (fun a b => utf16Units a ≤ utf16Units b) ids

/-- Texts that are sorted stand in one order. -/
theorem eq_of_sorted {ids ids' : List String} (h : ids.Perm ids') (hids : ids.Pairwise UnitsLE)
    (hids' : ids'.Pairwise UnitsLE) : ids = ids' :=
  List.Perm.eq_of_pairwise (fun _ _ _ _ hab hba => utf16Units_injective (le_antisymm hab hba))
    hids hids' h

/-- **A sample does not depend on the order in which the rows were read.** -/
theorem sampled_perm {ids ids' : List String} (h : ids.Perm ids') : sampled ids = sampled ids' := by
  unfold sampled
  rw [eq_of_sorted (((List.perm_insertionSort _ ids).trans h).trans
    (List.perm_insertionSort _ ids').symm) (sorted_insertionSort ids) (sorted_insertionSort ids')]

/-! ## Maps and loops -/

/-- In a map that is filled from pairs, each key has its value. -/
theorem lookup_foldl_set {α : Type} {pairs map : Entries α} (h : (pairs.map Prod.fst).Nodup)
    (k : String) :
    (pairs.foldl (fun map e => map.set e.1 e.2) map).lookup k =
      (pairs.lookup k).or (map.lookup k) := by
  induction pairs generalizing map with
  | nil => rfl
  | cons e pairs ih =>
    obtain ⟨n, v⟩ := e
    obtain ⟨hnew, hnodup⟩ := List.nodup_cons.mp h
    rw [List.foldl_cons, ih hnodup, Entries.lookup_set, List.lookup_cons]
    by_cases hk : k = n
    · have hnone : pairs.lookup k = none := by
        rw [List.lookup_eq_none_iff]
        intro e he
        have hne : e.1 ≠ k := fun hek => hnew (List.mem_map.mpr ⟨e, he, hek.trans hk⟩)
        simpa using hne.symm
      simp [hk ▸ hnone, hk]
    · have hne : (k == n) = false := by simpa using hk
      simp [hne, hk]

/-- In a map of rows, each key has the value of its row. -/
theorem lookup_map_rows {α β : Type} (key : α → String) (f : α → β) (rows : List α) (k : String) :
    (rows.map fun row => (key row, f row)).lookup k =
      (rows.find? fun row => decide (key row = k)).map f := by
  induction rows with
  | nil => rfl
  | cons row rows ih =>
    rw [List.map_cons, List.lookup_cons, List.find?_cons, ih]
    by_cases hk : key row = k
    · simp [hk]
    · have hne : (k == key row) = false := by simpa using Ne.symm hk
      simp [hk, hne]

/-- A map of the rows of a table finds the row with the key. -/
theorem lookup_mapOf {α β : Type} [Constrained α] {key : α → String} (hkey : Table.IsKey key)
    (f : α → β) (t : Table α) (k : String) :
    (D1.mapOf (t.rows.map fun row => (key row, f row))).lookup k = (t.lookup key k).map f := by
  have hnodup : ((t.rows.map fun row => (key row, f row)).map Prod.fst).Nodup := by
    rw [List.map_map]
    refine List.pairwise_map.mpr (t.unique.imp fun {a b} hab hsame => ?_)
    rw [hkey a b hsame] at hab
    cases hab
  rw [D1.mapOf, lookup_foldl_set hnodup, List.lookup_nil, Option.or_none, lookup_map_rows]
  rfl

/-- A loop that pushes ids into categories leaves each id in its category. -/
theorem foldl_push {α : Type} (keep : α → Bool) (category : α → ConsistencyCategory)
    (jobId : α → String) (rows : List α) (acc : ConsistencyCategory → List String)
    (c : ConsistencyCategory) :
    rows.foldl (fun acc row => if keep row then D1.push acc (category row) (jobId row) else acc)
        acc c =
      acc c ++ (rows.filter fun row => keep row && category row = c).map jobId := by
  induction rows generalizing acc with
  | nil => simp
  | cons row rows ih =>
    rw [List.foldl_cons, ih, List.filter_cons]
    by_cases hkeep : keep row = true
    · by_cases hc : category row = c
      · simp [hkeep, hc, D1.push]
      · simp [hkeep, hc, D1.push, Function.update_of_ne (Ne.symm hc)]
    · simp [hkeep]

/-! ## What a report has to count -/

/-- The keys of a report. -/
def consistencyCategories : List ConsistencyCategory :=
  [.matched, .historicalMigration, .orphanDlq, .deadWithoutDlq, .alreadyReplayed, .missingEnvelope,
    .integrityAnomaly]

/-- The dead letters that were created up to the freeze instant. -/
def lettersUntil (freezeAt : Instant) (db : Db) : List DeadLetterRow :=
  db.deadLetters.rows.filter fun letter => letter.createdAt ≤ freezeAt

def deadJobs (db : Db) : List JobRow := db.jobs.rows.filter fun job => job.status = .dead

/-- The dead jobs without such a letter. -/
def lonelyJobs (freezeAt : Instant) (db : Db) : List JobRow :=
  (deadJobs db).filter fun job =>
    !(lettersUntil freezeAt db).any fun letter => letter.jobId = job.jobId

/-- The job ids of a category, where dead letters are classified by `classify`. -/
def memberIds (classify : DeadLetterRow → ConsistencyCategory) (freezeAt : Instant) (db : Db) :
    ConsistencyCategory → List String
  | .deadWithoutDlq => (lonelyJobs freezeAt db).map JobRow.jobId
  | category => ((lettersUntil freezeAt db).filter fun letter => classify letter = category).map
      DeadLetterRow.jobId

/-- A report counts every dead letter, and every dead job without one, in one category. -/
structure Partitions (classify : DeadLetterRow → ConsistencyCategory) (freezeAt : Instant) (db : Db)
    (report : DlqConsistencyReport) : Prop where
  letter : ∀ letter, classify letter ≠ .deadWithoutDlq
  counts : ∀ category,
    report.counts category = (memberIds classify freezeAt db category).length
  samples : ∀ category, ∃ ids : List String, ids.Perm (memberIds classify freezeAt db category) ∧
    ids.Pairwise UnitsLE ∧ report.samples category = ids.take 20
  sum : (consistencyCategories.map report.counts).sum =
    report.deadLetters + (lonelyJobs freezeAt db).length
  deadLetters : report.deadLetters = (lettersUntil freezeAt db).length
  deadJobs : report.deadJobs = (deadJobs db).length

/-- Six categories cover the letters. -/
theorem sum_categories {classify : DeadLetterRow → ConsistencyCategory}
    (h : ∀ letter, classify letter ≠ .deadWithoutDlq) (letters : List DeadLetterRow) (lonely : Nat) :
    (consistencyCategories.map fun category =>
      if category = .deadWithoutDlq then lonely
      else letters.countP fun letter => classify letter = category).sum =
      letters.length + lonely := by
  induction letters with
  | nil => simp [consistencyCategories]
  | cons letter letters ih =>
    have hletter := h letter
    simp only [consistencyCategories, List.map_cons, List.map_nil, List.sum_cons, List.sum_nil,
      reduceCtorEq, if_false, if_true, List.countP_cons, List.length_cons] at ih ⊢
    cases hc : classify letter <;> simp_all <;> omega

theorem length_memberIds (classify : DeadLetterRow → ConsistencyCategory) (freezeAt : Instant)
    (db : Db) (category : ConsistencyCategory) :
    (memberIds classify freezeAt db category).length =
      if category = .deadWithoutDlq then (lonelyJobs freezeAt db).length
      else (lettersUntil freezeAt db).countP fun letter => classify letter = category := by
  cases category <;> simp [memberIds, List.countP_eq_length_filter]

/-- A report whose lists are those of a classification partitions by it. -/
theorem Partitions.of_perm {classify : DeadLetterRow → ConsistencyCategory} {freezeAt : Instant}
    {db : Db} {report : DlqConsistencyReport} {ids : ConsistencyCategory → List String}
    (hletter : ∀ letter, classify letter ≠ .deadWithoutDlq)
    (hids : ∀ category, (ids category).Perm (memberIds classify freezeAt db category))
    (hcounts : ∀ category, report.counts category = (ids category).length)
    (hsamples : ∀ category, report.samples category = sampled (ids category))
    (hletters : report.deadLetters = (lettersUntil freezeAt db).length)
    (hjobs : report.deadJobs = (InboxServer.deadJobs db).length) :
    Partitions classify freezeAt db report where
  letter := hletter
  counts category := by rw [hcounts, (hids category).length_eq]
  samples category := ⟨_, (List.perm_insertionSort _ _).trans (hids category),
    sorted_insertionSort _, hsamples category⟩
  sum := by
    have hcount : report.counts = fun category =>
        if category = .deadWithoutDlq then (lonelyJobs freezeAt db).length
        else (lettersUntil freezeAt db).countP fun letter => classify letter = category :=
      funext fun category => by
        rw [hcounts, (hids category).length_eq, length_memberIds]
    rw [hcount, sum_categories hletter, hletters]
  deadLetters := hletters
  deadJobs := hjobs

/-! ## The report of PostgreSQL -/

def postgresCategory (db : Db) (letter : DeadLetterRow) : ConsistencyCategory :=
  Postgres.classifyDeadLetter (Postgres.dlqRow letter db)

theorem postgresCategory_ne (db : Db) (letter : DeadLetterRow) :
    postgresCategory db letter ≠ .deadWithoutDlq := by
  unfold postgresCategory Postgres.classifyDeadLetter
  split
  · simp
  · split_ifs <;> simp

theorem postgres_deadWithoutDlq (freezeAt : Instant) (db : Db) :
    Postgres.deadWithoutDlq freezeAt db = (lonelyJobs freezeAt db).map JobRow.jobId := by
  unfold Postgres.deadWithoutDlq lonelyJobs deadJobs lettersUntil
  rw [List.filter_filter]
  refine congrArg (List.map JobRow.jobId) (List.filter_congr fun job _ => ?_)
  rw [List.any_filter, Bool.and_comm]
  refine congrArg (! · && _) (congrArg (List.any _) (funext fun letter => Bool.and_comm _ _))

/-- The ids of a category on PostgreSQL are those of its members. -/
theorem postgres_categoryIds (freezeAt : Instant) (db : Db) (category : ConsistencyCategory) :
    Postgres.categoryIds freezeAt db category =
      memberIds (postgresCategory db) freezeAt db category := by
  unfold Postgres.categoryIds
  rw [postgres_deadWithoutDlq]
  have hrows : ∀ c : ConsistencyCategory,
      ((Postgres.frozenLetters freezeAt db).filter fun row =>
        Postgres.classifyDeadLetter row = c).map Postgres.DlqRow.jobId =
      ((lettersUntil freezeAt db).filter fun letter => postgresCategory db letter = c).map
        DeadLetterRow.jobId := fun c => by
    rw [Postgres.frozenLetters, List.filter_map, List.map_map]
    rfl
  cases category <;> simp [memberIds, hrows]

theorem nodup_letterIds (freezeAt : Instant) (db : Db) :
    ((lettersUntil freezeAt db).map DeadLetterRow.jobId).Nodup := by
  refine List.pairwise_map.mpr ((db.deadLetters.unique.filter _).imp fun {a b} hab hsame => ?_)
  rw [DeadLetterRow.isKey_jobId a b hsame] at hab
  cases hab

theorem nodup_deadJobIds (db : Db) : ((deadJobs db).map JobRow.jobId).Nodup := by
  refine List.pairwise_map.mpr ((db.jobs.unique.filter _).imp fun {a b} hab hsame => ?_)
  rw [JobRow.isKey_jobId a b hsame] at hab
  cases hab

theorem mem_deadJobs {db : Db} {job : JobRow} : job ∈ deadJobs db ↔ job ∈ db.jobs ∧ job.status = .dead := by
  simp [deadJobs, Table.mem_rows]

/-- The dead jobs that have a letter are as many as the letters of dead jobs. -/
theorem count_deadLetters (freezeAt : Instant) (db : Db) :
    (lettersUntil freezeAt db).countP
        (fun letter => (db.jobs.lookup JobRow.jobId letter.jobId).map JobRow.status = some .dead) +
      (lonelyJobs freezeAt db).length = (deadJobs db).length := by
  have hids : (((lettersUntil freezeAt db).filter fun letter =>
        (db.jobs.lookup JobRow.jobId letter.jobId).map JobRow.status = some .dead).map
          DeadLetterRow.jobId).Perm
      (((deadJobs db).filter fun job =>
        (lettersUntil freezeAt db).any fun letter => letter.jobId = job.jobId).map JobRow.jobId) := by
    refine (List.perm_ext_iff_of_nodup ?_ ?_).mpr fun id => ?_
    · exact (nodup_letterIds freezeAt db).sublist (List.filter_sublist.map _)
    · exact (nodup_deadJobIds db).sublist (List.filter_sublist.map _)
    · simp only [List.mem_map, List.mem_filter, decide_eq_true_eq, List.any_eq_true]
      constructor
      · rintro ⟨letter, ⟨hletter, hstatus⟩, rfl⟩
        obtain ⟨job, hjob, hdead⟩ := Option.map_eq_some_iff.mp hstatus
        have hsame := Table.lookup_key hjob
        exact ⟨job, ⟨mem_deadJobs.mpr ⟨Table.lookup_mem hjob, hdead⟩, letter, hletter, hsame.symm⟩,
          hsame⟩
      · rintro ⟨job, ⟨hjob, letter, hletter, hsame⟩, rfl⟩
        obtain ⟨hmem, hdead⟩ := mem_deadJobs.mp hjob
        refine ⟨letter, ⟨hletter, ?_⟩, hsame⟩
        rw [(Table.lookup_eq_some JobRow.isKey_jobId).mpr ⟨hmem, hsame.symm⟩, Option.map_some, hdead]
  have hsplit := List.length_eq_length_filter_add (l := deadJobs db) fun job =>
    (lettersUntil freezeAt db).any fun letter => letter.jobId = job.jobId
  have hlength := hids.length_eq
  rw [List.length_map, List.length_map] at hlength
  rw [List.countP_eq_length_filter, hlength, hsplit]
  rfl

/-- The report of PostgreSQL parts the dead jobs and the letters. -/
theorem postgres_partitions (freezeAt : Instant) (db : Db) :
    Partitions (postgresCategory db) freezeAt db (Postgres.getDlqConsistency freezeAt db) := by
  refine .of_perm (postgresCategory_ne db)
    (fun category => List.Perm.of_eq (postgres_categoryIds freezeAt db category))
    (fun _ => rfl) (fun _ => rfl) ?_ ?_
  · simp [Postgres.getDlqConsistency, Postgres.frozenLetters, lettersUntil]
  · simp only [Postgres.getDlqConsistency, postgres_deadWithoutDlq, List.length_map]
    rw [← count_deadLetters freezeAt db, Nat.add_comm, Postgres.frozenLetters, List.countP_map]
    rfl

/-! ## The report of D1 -/

/-- The category of a letter on D1, by its envelope and its job. -/
theorem d1_letterCategory (db : Db) (letter : DeadLetterRow) :
    D1.letterCategory db letter =
      D1.classifyDeadLetter letter
        ((letter.envelopeJobId.filter (· ≠ "")).bind (db.envelopes.lookup EnvelopeRow.jobId))
        ((db.jobs.lookup JobRow.jobId letter.jobId).map JobRow.status)
        (Postgres.replayed letter.jobId db) := by
  have henvelope : ∀ id, (D1.envelopesById db).lookup id = db.envelopes.lookup EnvelopeRow.jobId id :=
    fun id => by simp [D1.envelopesById, lookup_mapOf EnvelopeRow.isKey_jobId (fun row => row)]
  have hreplayed : (D1.replayedIds db).contains letter.jobId = Postgres.replayed letter.jobId db := by
    rw [Bool.eq_iff_iff]
    simp only [D1.replayedIds, Postgres.replayed, List.contains_iff_mem, List.mem_dedup,
      List.mem_map, List.mem_filter, List.any_eq_true, Bool.and_eq_true, decide_eq_true_eq]
    exact exists_congr fun operation => by tauto
  simp only [D1.letterCategory, henvelope, hreplayed, D1.jobsById,
    lookup_mapOf JobRow.isKey_jobId JobRow.status]

/-- On D1, too, no letter is in the category of jobs without one. -/
theorem d1_letterCategory_ne (db : Db) (letter : DeadLetterRow) :
    D1.letterCategory db letter ≠ .deadWithoutDlq := by
  rw [d1_letterCategory]
  unfold D1.classifyDeadLetter
  split
  · simp
  · split_ifs
    · simp
    · simp
    · split
      · split_ifs <;> simp
      · simp

theorem frozenLetters_perm (freezeAt : Instant) (db : Db) :
    (D1.frozenLetters freezeAt db).Perm (lettersUntil freezeAt db) := List.perm_insertionSort _ _

/-- The ids of a category on D1 are those of its members, in some order. -/
theorem d1_categorized (freezeAt : Instant) (db : Db) (category : ConsistencyCategory) :
    (D1.categorized freezeAt db category).Perm
      (memberIds (D1.letterCategory db) freezeAt db category) := by
  have hletters := foldl_push (fun _ => true) (D1.letterCategory db) DeadLetterRow.jobId
    (D1.frozenLetters freezeAt db) (fun _ => []) category
  have hjobs := foldl_push (fun job => job.status = .dead &&
      !((D1.frozenLetters freezeAt db).map DeadLetterRow.jobId).contains job.jobId)
    (fun _ => .deadWithoutDlq) JobRow.jobId db.jobs.rows
    ((D1.frozenLetters freezeAt db).foldl
      (fun acc letter => D1.push acc (D1.letterCategory db letter) letter.jobId) fun _ => []) category
  simp only [if_true, List.nil_append, Bool.true_and] at hletters
  rw [D1.categorized, hjobs, hletters]
  by_cases hc : category = .deadWithoutDlq
  · subst hc
    have hnone : ((D1.frozenLetters freezeAt db).filter fun letter =>
        D1.letterCategory db letter = .deadWithoutDlq) = [] :=
      List.filter_eq_nil_iff.mpr fun letter _ => by simpa using d1_letterCategory_ne db letter
    rw [hnone]
    refine List.Perm.of_eq (congrArg (List.map JobRow.jobId) ?_)
    rw [lonelyJobs, deadJobs, List.filter_filter]
    refine List.filter_congr fun job _ => ?_
    have hcontains : ((D1.frozenLetters freezeAt db).map DeadLetterRow.jobId).contains job.jobId =
        (lettersUntil freezeAt db).any fun letter => letter.jobId = job.jobId := by
      rw [Bool.eq_iff_iff, List.contains_iff_mem,
        ((frozenLetters_perm freezeAt db).map DeadLetterRow.jobId).mem_iff]
      simp
    rw [hcontains]
    simp [Bool.and_comm]
  · have hids : memberIds (D1.letterCategory db) freezeAt db category =
        ((lettersUntil freezeAt db).filter fun letter =>
          D1.letterCategory db letter = category).map DeadLetterRow.jobId := by
      cases category <;> first | rfl | exact absurd rfl hc
    simp only [decide_eq_false (Ne.symm hc), Bool.and_false, List.filter_false, List.map_nil,
      List.append_nil]
    rw [hids]
    exact ((frozenLetters_perm freezeAt db).filter _).map _

theorem d1_partitions (freezeAt : Instant) (db : Db) :
    Partitions (D1.letterCategory db) freezeAt db (D1.getDlqConsistency freezeAt db) :=
  .of_perm (d1_letterCategory_ne db) (d1_categorized freezeAt db) (fun _ => rfl) (fun _ => rfl)
    (frozenLetters_perm freezeAt db).length_eq rfl

/-! ## Agreement -/

/--
A letter of a dead job that was never replayed names the envelope whose job id is empty, and there
is one. D1 takes the empty id for none.
-/
structure NamesEmptyEnvelope (db : Db) (letter : DeadLetterRow) : Prop where
  names : letter.envelopeJobId = some ""
  stored : ∃ envelope ∈ db.envelopes, envelope.jobId = ""
  dead : ∃ job ∈ db.jobs, job.jobId = letter.jobId ∧ job.status = .dead
  unreplayed : Postgres.replayed letter.jobId db = false

/-- The categories agree, unless the letter names the empty text. -/
theorem categories_agree {db : Db} {letter : DeadLetterRow} (h : ¬ NamesEmptyEnvelope db letter) :
    D1.letterCategory db letter = postgresCategory db letter := by
  rw [d1_letterCategory]
  unfold postgresCategory Postgres.classifyDeadLetter D1.classifyDeadLetter
  simp only [Postgres.dlqRow, Postgres.namedEnvelope]
  cases hjob : db.jobs.lookup JobRow.jobId letter.jobId with
  | none => rfl
  | some job =>
    simp only [Option.map_some]
    by_cases hreplayed : Postgres.replayed letter.jobId db = true
    · simp [hreplayed]
    · by_cases hdead : job.status = .dead
      · rcases Option.eq_none_or_eq_some letter.envelopeJobId with hid | ⟨id, hid⟩
        · simp [hreplayed, hdead, hid]
        · by_cases hempty : id = ""
          · subst hempty
            have hnone : db.envelopes.lookup EnvelopeRow.jobId "" = none := by
              refine Table.lookup_eq_none.mpr fun envelope hmem hsame => h ?_
              exact ⟨hid, ⟨envelope, hmem, hsame⟩,
                ⟨job, Table.lookup_mem hjob, Table.lookup_key hjob, hdead⟩, by simpa using hreplayed⟩
            simp [hreplayed, hdead, hid, hnone]
          · cases henvelope : db.envelopes.lookup EnvelopeRow.jobId id with
            | none => simp [hreplayed, hdead, hid, hempty, henvelope, Option.filter]
            | some envelope => simp [hreplayed, hdead, hid, hempty, henvelope, Option.filter]
      · simp [hreplayed, hdead]

/-- What D1 makes of such a letter, and PostgreSQL does not. -/
theorem categories_differ {db : Db} {letter : DeadLetterRow} (h : NamesEmptyEnvelope db letter) :
    D1.letterCategory db letter = .missingEnvelope ∧
      postgresCategory db letter ≠ .missingEnvelope := by
  obtain ⟨envelope, hmem, hsame⟩ := h.stored
  obtain ⟨job, hjob, hid, hdead⟩ := h.dead
  have hlookup := (Table.lookup_eq_some JobRow.isKey_jobId).mpr ⟨hjob, hid⟩
  have henvelope := (Table.lookup_eq_some EnvelopeRow.isKey_jobId).mpr ⟨hmem, hsame⟩
  constructor
  · rw [d1_letterCategory]
    simp [D1.classifyDeadLetter, hlookup, h.names, h.unreplayed, hdead]
  · simp only [postgresCategory, Postgres.classifyDeadLetter, Postgres.dlqRow,
      Postgres.namedEnvelope, hlookup, h.names, h.unreplayed, hdead, Option.map_some, Option.bind_some,
      henvelope]
    split_ifs <;> simp_all

/-- Two reports that partition by classifications that agree are the same. -/
theorem Partitions.eq {classify classify' : DeadLetterRow → ConsistencyCategory}
    {freezeAt : Instant} {db : Db} {report report' : DlqConsistencyReport}
    (h : Partitions classify freezeAt db report) (h' : Partitions classify' freezeAt db report')
    (hagree : ∀ letter ∈ lettersUntil freezeAt db, classify letter = classify' letter)
    (hfreeze : report.freezeAt = report'.freezeAt)
    (hunexplained : report.unexplainedCount = report'.unexplainedCount) : report = report' := by
  have hmembers : ∀ category,
      memberIds classify freezeAt db category = memberIds classify' freezeAt db category := by
    have hfilter : ∀ category : ConsistencyCategory,
        ((lettersUntil freezeAt db).filter fun letter => classify letter = category) =
          (lettersUntil freezeAt db).filter fun letter => classify' letter = category :=
      fun category => List.filter_congr fun letter hletter => by rw [hagree letter hletter]
    intro category
    cases category <;> simp only [memberIds, hfilter]
  have hcounts : report.counts = report'.counts := funext fun category => by
    rw [h.counts, h'.counts, hmembers]
  have hsamples : report.samples = report'.samples := funext fun category => by
    obtain ⟨ids, hperm, hsorted, hids⟩ := h.samples category
    obtain ⟨ids', hperm', hsorted', hids'⟩ := h'.samples category
    rw [← hmembers] at hperm'
    rw [hids, hids', eq_of_sorted (hperm.trans hperm'.symm) hsorted hsorted']
  have hletters := h.deadLetters.trans h'.deadLetters.symm
  have hjobs := h.deadJobs.trans h'.deadJobs.symm
  cases report
  cases report'
  simp_all

/--
**The two reports count every dead letter up to the freeze instant, and every dead job without one,
in one category each. They are the same report, unless a dead letter names the envelope whose job id
is empty.**
-/
theorem dlq_reports_agree (freezeAt : Instant) (db : Db) :
    (D1.getDlqConsistency freezeAt db = Postgres.getDlqConsistency freezeAt db ↔
        ∀ letter ∈ lettersUntil freezeAt db, ¬ NamesEmptyEnvelope db letter) ∧
      Partitions (D1.letterCategory db) freezeAt db (D1.getDlqConsistency freezeAt db) ∧
      Partitions (postgresCategory db) freezeAt db (Postgres.getDlqConsistency freezeAt db) := by
  have hd1 := d1_partitions freezeAt db
  have hpostgres := postgres_partitions freezeAt db
  refine ⟨⟨fun hsame letter hletter hempty => ?_, fun h => ?_⟩, hd1, hpostgres⟩
  · have himp : ∀ l, postgresCategory db l = .missingEnvelope →
        D1.letterCategory db l = .missingEnvelope := fun l hl => by
      by_cases hl' : NamesEmptyEnvelope db l
      · exact (categories_differ hl').1
      · exact (categories_agree hl').trans hl
    -- the letters that PostgreSQL counts are as many as those of D1, so they are the same
    have hlength := (hd1.counts .missingEnvelope).symm.trans
      ((congrFun (congrArg DlqConsistencyReport.counts hsame) _).trans
        (hpostgres.counts .missingEnvelope))
    simp only [memberIds, List.length_map] at hlength
    have hsub : ((lettersUntil freezeAt db).filter fun l =>
        postgresCategory db l = .missingEnvelope).Sublist
        ((lettersUntil freezeAt db).filter fun l => D1.letterCategory db l = .missingEnvelope) :=
      List.monotone_filter_right _ fun l hl => by simpa using himp l (by simpa using hl)
    have heq := hsub.eq_of_length hlength.symm
    have hmem : letter ∈ (lettersUntil freezeAt db).filter fun l =>
        D1.letterCategory db l = .missingEnvelope :=
      List.mem_filter.mpr ⟨hletter, by simpa using (categories_differ hempty).1⟩
    rw [← heq] at hmem
    exact (categories_differ hempty).2 (by simpa using (List.mem_filter.mp hmem).2)
  · exact hd1.eq hpostgres (fun letter hletter => categories_agree (h letter hletter)) rfl rfl

/-! ## An empty id -/

namespace EmptyEnvelopeId

def deadJob : JobRow :=
  (JobRow.claimed (Sample.textJob Sample.firstId) 0).setDead 3 .permanent "rejected" 0

def envelope : EnvelopeRow :=
  { jobId := "", dedupeKey := "text:1", schemaVersion := 1, payloadDigest := "00"
    ciphertext := [], status := .dead, createdAt := 0, updatedAt := 0 }

def letter : DeadLetterRow :=
  { jobId := Sample.firstId, dedupeKey := "text:1", kind := .job .dispatchItem
    itemKind := some .text, attempts := 3, errorClass := .permanent, errorMessage := "rejected"
    payloadDigest := "00", envelopeJobId := some "", createdAt := 0 }

def db : Db :=
  { Db.empty with
    jobs := ⟨[deadJob], List.pairwise_singleton _ _⟩
    envelopes := ⟨[envelope], List.pairwise_singleton _ _⟩
    deadLetters := ⟨[letter], List.pairwise_singleton _ _⟩ }

/-- D1 finds no envelope, and PostgreSQL one of another job. -/
theorem reports_differ :
    (D1.getDlqConsistency 0 db).counts .missingEnvelope = 1 ∧
      (Postgres.getDlqConsistency 0 db).counts .integrityAnomaly = 1 ∧
      D1.getDlqConsistency 0 db ≠ Postgres.getDlqConsistency 0 db := by
  have hd1 : (D1.getDlqConsistency 0 db).counts .integrityAnomaly = 0 := by decide +kernel
  have hpostgres : (Postgres.getDlqConsistency 0 db).counts .integrityAnomaly = 1 := by
    decide +kernel
  refine ⟨by decide +kernel, hpostgres, fun h => ?_⟩
  rw [h, hpostgres] at hd1
  cases hd1

end EmptyEnvelopeId

end InboxServer
