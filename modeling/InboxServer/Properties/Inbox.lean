import InboxServer.Api.Postgres.Inbox

/-!
# What one call does to the inbox

Staging, pulling and settling, each said as what it does to the row of a message id. None of them
fails, as long as the lease ids of a pull are new.

* `lookup_stage` — a message is inserted where no row has its id
* `pull_eq` — a pull leases the rows that it chooses, and reports them
* `lookup_settle` — a settlement touches the rows whose current lease it names
-/

namespace InboxServer

open Infra

/-- The row of a message. -/
def inboxRow (messageId : String) (inbox : Table InboxRow) : Option InboxRow :=
  inbox.lookup InboxRow.messageId messageId

theorem inboxRow_eq_some {messageId : String} {inbox : Table InboxRow} {row : InboxRow} :
    inboxRow messageId inbox = some row ↔ row ∈ inbox ∧ row.messageId = messageId :=
  Table.lookup_eq_some InboxRow.isKey_messageId

/-! ## Staging -/

/-- A message is staged, or there already. -/
theorem insertUnless?_staged (inbox : Table InboxRow) (messageId : String) (body : Json)
    (timestampMs : Int) (now : Instant) :
    ∃ inbox', inbox.insertUnless? (fun message => message.messageId = messageId)
        (InboxRow.staged messageId body timestampMs now) = some inbox' ∧
      ∀ k, inboxRow k inbox' = (inboxRow k inbox).or
        (if messageId = k then some (InboxRow.staged messageId body timestampMs now) else none) := by
  cases hrow : inboxRow messageId inbox with
  | some row =>
    obtain ⟨hmem, hid⟩ := inboxRow_eq_some.mp hrow
    have hany : inbox.rows.any (fun message => message.messageId = messageId) = true :=
      List.any_eq_true.mpr ⟨row, hmem, decide_eq_true hid⟩
    refine ⟨inbox, by rw [Table.insertUnless?, if_pos hany], fun k => ?_⟩
    split
    · next hk => rw [← hk, hrow]; rfl
    · rw [Option.or_none]
  | none =>
    have habsent := Table.lookup_eq_none.mp hrow
    have hany : ¬ inbox.rows.any (fun message => message.messageId = messageId) = true := by
      intro h
      obtain ⟨message, hmem, hid⟩ := List.any_eq_true.mp h
      exact habsent message hmem (of_decide_eq_true hid)
    have hfresh : ∀ message ∈ inbox, Constrained.conflict message
        (InboxRow.staged messageId body timestampMs now) = false := by
      intro message hmem
      rw [Bool.eq_false_iff]
      intro hconflict
      simp only [Constrained.conflict, InboxRow.staged, Bool.or_eq_true, Bool.and_eq_true]
        at hconflict
      rcases hconflict with hid | ⟨hsome, hnone⟩
      · exact habsent message hmem (of_decide_eq_true hid)
      · rw [of_decide_eq_true hnone] at hsome
        cases hsome
    obtain ⟨inbox', hins⟩ := Table.insert?_isSome hfresh
    refine ⟨inbox', by rw [Table.insertUnless?, if_neg hany, hins], fun k => ?_⟩
    rw [inboxRow, Table.lookup_insert? InboxRow.isKey_messageId hins]
    show (if messageId = k then _ else inboxRow k inbox) = _
    split
    · next hk => rw [← hk, hrow]; rfl
    · rw [Option.or_none]

/-- `ON CONFLICT (message_id) DO NOTHING` and `OR IGNORE` are one for a row without a lease id. -/
theorem insertUnless?_staged_eq (inbox : Table InboxRow) (messageId : String) (body : Json)
    (timestampMs : Int) (now : Instant) :
    inbox.insertUnless? (fun message => message.messageId = messageId)
        (InboxRow.staged messageId body timestampMs now) =
      some ((inbox.insert? (InboxRow.staged messageId body timestampMs now)).getD inbox) := by
  obtain ⟨inbox', hins, -⟩ := insertUnless?_staged inbox messageId body timestampMs now
  unfold Table.insertUnless? at hins ⊢
  split
  · next hany =>
    obtain ⟨row, hmem, hid⟩ := List.any_eq_true.mp hany
    have hrow : inbox.lookup InboxRow.messageId messageId = some row :=
      inboxRow_eq_some.mpr ⟨hmem, of_decide_eq_true hid⟩
    have hnone : inbox.insert? (InboxRow.staged messageId body timestampMs now) = none :=
      Table.insert?_of_lookup_eq_some InboxRow.isKey_messageId hrow
    rw [hnone]
    rfl
  · next hany =>
    rw [if_neg hany] at hins
    rw [hins]
    rfl

namespace Postgres

/-- The row that a message is staged as. -/
def InboxMessage.row (now : Instant) (message : InboxMessage) : InboxRow :=
  InboxRow.staged message.id message.body message.timestampMs now

/-- Staging never fails: the row of an id stays, or is that of the first message with the id. -/
theorem lookup_stage (now : Instant) (messages : List InboxMessage) (inbox : Table InboxRow) :
    ∃ inbox', stage now messages inbox = .ok inbox' ∧
      ∀ k, inboxRow k inbox' = (inboxRow k inbox).or
        ((messages.find? fun message => message.id = k).map (InboxMessage.row now)) := by
  induction messages generalizing inbox with
  | nil => exact ⟨inbox, rfl, fun k => by simp⟩
  | cons message messages ih =>
    obtain ⟨inbox₁, hins, hrows₁⟩ := insertUnless?_staged inbox message.id message.body
      message.timestampMs now
    obtain ⟨inbox₂, hstage, hrows₂⟩ := ih inbox₁
    have hone : stageMessage now inbox message = .ok inbox₁ := by rw [stageMessage, hins]
    refine ⟨inbox₂, ?_, fun k => ?_⟩
    · show stageMessage now inbox message >>= _ = _
      rw [hone]
      exact hstage
    · rw [hrows₂, hrows₁, Option.or_assoc]
      congr 1
      by_cases hk : message.id = k
      · rw [if_pos hk, List.find?_cons_of_pos (by simpa using hk)]
        rfl
      · rw [if_neg hk, List.find?_cons_of_neg (by simpa using hk), Option.none_or]

/-! ## Settling -/

/-- What the retries of a settlement do to a row. -/
def retryRow (now : Instant) (retries : List InboxRetry) (row : InboxRow) : InboxRow :=
  retries.foldl (fun r retry => if holdsLease retry.leaseId r then
    r.release (now + (retry.delaySeconds.getD 0) * 1000) now else r) row

theorem release_messageId (availableAt now : Instant) (row : InboxRow) :
    (row.release availableAt now).messageId = row.messageId := rfl

theorem inboxRow_acks (acks : List String) (inbox : Table InboxRow) (k : String) :
    inboxRow k (acks.foldl acknowledge inbox) =
      (inboxRow k inbox).filter fun row => !acks.any fun leaseId => holdsLease leaseId row := by
  induction acks generalizing inbox with
  | nil => cases h : inboxRow k inbox <;> simp [h, Option.filter]
  | cons leaseId acks ih =>
    have hone : inboxRow k (acknowledge inbox leaseId) =
        (inboxRow k inbox).filter fun row => !holdsLease leaseId row :=
      Table.lookup_delete InboxRow.isKey_messageId k
    rw [List.foldl_cons, ih, hone]
    cases inboxRow k inbox with
    | none => rfl
    | some row => cases hheld : holdsLease leaseId row <;> simp [hheld, Option.filter]

theorem inboxRow_retries (now : Instant) (retries : List InboxRetry) (inbox : Table InboxRow)
    (k : String) :
    inboxRow k (retries.foldl (retryLease now) inbox) =
      (inboxRow k inbox).map (retryRow now retries) := by
  induction retries generalizing inbox with
  | nil => exact Option.map_id'.symm
  | cons retry retries ih =>
    have hone : inboxRow k (retryLease now inbox retry) = (inboxRow k inbox).map fun row =>
        if holdsLease retry.leaseId row then
          row.release (now + (retry.delaySeconds.getD 0) * 1000) now
        else row :=
      Table.lookup_update (release_messageId _ _) k
    rw [List.foldl_cons, ih, hone, Option.map_map]
    rfl

/-- A row without a lease is in no settlement. -/
theorem retryRow_of_not_held {now : Instant} {retries : List InboxRetry} {row : InboxRow}
    (h : ∀ retry ∈ retries, holdsLease retry.leaseId row = false) :
    retryRow now retries row = row := by
  induction retries with
  | nil => rfl
  | cons retry retries ih =>
    rw [retryRow, List.foldl_cons, h retry (by simp)]
    exact ih fun r hr => h r (by simp [hr])

theorem holdsLease_release (leaseId : String) (availableAt now : Instant) (row : InboxRow) :
    holdsLease leaseId (row.release availableAt now) = false := by
  simp [holdsLease, InboxRow.release]

/-- The first retry that names the lease of a row releases it; later ones find it without a lease. -/
theorem retryRow_eq (now : Instant) (retries : List InboxRetry) (row : InboxRow) :
    retryRow now retries row =
      match retries.find? fun retry => holdsLease retry.leaseId row with
      | some retry => row.release (now + (retry.delaySeconds.getD 0) * 1000) now
      | none => row := by
  induction retries with
  | nil => rfl
  | cons retry retries ih =>
    rw [retryRow, List.foldl_cons]
    by_cases hheld : holdsLease retry.leaseId row = true
    · simp only [List.find?_cons, hheld]
      exact retryRow_of_not_held fun r _ => holdsLease_release r.leaseId _ now row
    · rw [Bool.not_eq_true] at hheld
      simp only [hheld, List.find?_cons, Bool.false_eq_true, if_false]
      exact ih

/-- A settlement with a lease in both lists is refused, any other goes through. -/
theorem lookup_settle {now : Instant} {settlement : InboxSettlement}
    (h : ∀ retry ∈ settlement.retries, retry.leaseId ∉ settlement.acks) (inbox : Table InboxRow) :
    ∃ inbox', settle now settlement inbox = .ok inbox' ∧
      ∀ k, inboxRow k inbox' = ((inboxRow k inbox).filter fun row =>
        !settlement.acks.any fun leaseId => holdsLease leaseId row).map
          (retryRow now settlement.retries) := by
  have hdistinct : ¬ (settlement.retries.any fun retry => retry.leaseId ∈ settlement.acks) = true :=
    by simpa using h
  refine ⟨_, by rw [settle, if_neg hdistinct], fun k => ?_⟩
  rw [inboxRow_retries, inboxRow_acks]

theorem settle_refused {now : Instant} {settlement : InboxSettlement} {retry : InboxRetry}
    (hmem : retry ∈ settlement.retries) (hack : retry.leaseId ∈ settlement.acks)
    (inbox : Table InboxRow) :
    settle now settlement inbox = .error "lease cannot be acknowledged and retried" := by
  have hany : (settlement.retries.any fun r => r.leaseId ∈ settlement.acks) = true :=
    List.any_eq_true.mpr ⟨retry, hmem, decide_eq_true hack⟩
  rw [settle, if_pos hany]

/-! ## Pulling -/

theorem lease_messageId (leaseId : String) (leaseUntil now : Instant) (row : InboxRow) :
    (row.lease leaseId leaseUntil now).messageId = row.messageId := rfl

/-- The row of a queued message, as the `UPDATE` of its lease finds it. -/
theorem find?_candidate {inbox : Table InboxRow} {candidate : InboxRow}
    (hmem : candidate ∈ inbox) (hqueued : candidate.status = .queued) :
    inbox.rows.find? (fun row => row.messageId = candidate.messageId && row.status = .queued) =
      some candidate := by
  cases hfind : inbox.rows.find?
      (fun row => row.messageId = candidate.messageId && row.status = .queued) with
  | none =>
    have hnot := List.find?_eq_none.mp hfind candidate hmem
    exact absurd (by simp [hqueued]) hnot
  | some row =>
    have hmet := List.find?_some hfind
    simp only [Bool.and_eq_true, decide_eq_true_eq] at hmet
    rw [Table.eq_of_conflict (List.mem_of_find?_eq_some hfind) hmem
      (InboxRow.isKey_messageId _ _ hmet.1)]

/-- A lease id that no message has can be written on one. -/
theorem update?_lease_isSome {inbox : Table InboxRow} (candidate : InboxRow) {leaseId : String}
    (hnew : ∀ row ∈ inbox, row.leaseId ≠ some leaseId) (leaseUntil now : Instant) :
    ∃ updated, inbox.update?
      (fun row => row.messageId = candidate.messageId && row.status = .queued)
      (InboxRow.lease leaseId leaseUntil now) = some updated := by
  refine Table.update?_isSome fun a ha b hb hab => ?_
  simp only [Constrained.conflict, Bool.or_eq_false_iff, decide_eq_false_iff_not] at hab
  have hother : ∀ row ∈ inbox, ¬ some leaseId = row.leaseId := fun row hrow h => hnew row hrow h.symm
  split
  · next hpa =>
    split
    · next hpb =>
      simp only [Bool.and_eq_true, decide_eq_true_eq] at hpa hpb
      exact absurd (hpa.1.trans hpb.1.symm) hab.1
    · simp [Constrained.conflict, InboxRow.lease, hab.1, hother b hb]
  · split
    · have hleft := hnew a ha
      simp [Constrained.conflict, InboxRow.lease, hab.1, hleft]
    · simpa [Constrained.conflict, hab.1] using hab.2

/-- The loop over the candidates leases each of them, with lease ids that are new. -/
theorem leaseCandidates_eq (now leaseUntil : Instant) (pairs : List (InboxRow × String))
    (inbox : Table InboxRow)
    (hmem : ∀ p ∈ pairs, p.1 ∈ inbox ∧ p.1.status = .queued)
    (hids : (pairs.map fun p => p.1.messageId).Nodup) (hleases : (pairs.map Prod.snd).Nodup)
    (hfresh : ∀ p ∈ pairs, ∀ row ∈ inbox, row.leaseId ≠ some p.2) :
    ∃ final, leaseCandidates now leaseUntil pairs inbox =
        .ok (pairs.map fun p => leaseOf p.2 (p.1.lease p.2 leaseUntil now), final) ∧
      (∀ k, inboxRow k final = (inboxRow k inbox).map fun row =>
        match pairs.find? fun p => p.1.messageId = k with
        | some p => row.lease p.2 leaseUntil now
        | none => row) ∧
      final.rows.length = inbox.rows.length := by
  induction pairs generalizing inbox with
  | nil => exact ⟨inbox, rfl, fun k => by cases inboxRow k inbox <;> rfl, rfl⟩
  | cons pair pairs ih =>
    obtain ⟨candidate, leaseId⟩ := pair
    obtain ⟨hcandidate, hqueued⟩ : candidate ∈ inbox ∧ candidate.status = .queued :=
      hmem (candidate, leaseId) (by simp)
    have hnew : ∀ row ∈ inbox, row.leaseId ≠ some leaseId := hfresh (candidate, leaseId) (by simp)
    rw [List.map_cons, List.nodup_cons] at hids hleases
    -- the fresh lease id meets no constraint, so the first row is leased
    obtain ⟨updated, hupdated⟩ := update?_lease_isSome candidate hnew leaseUntil now
    have hlookup := Table.lookup_update? hupdated (lease_messageId leaseId leaseUntil now)
    have hrows := Table.update?_rows hupdated
    have hrest : ∀ p ∈ pairs, p.1.messageId ≠ candidate.messageId := by
      intro p hp h
      exact hids.1 (List.mem_map.mpr ⟨p, hp, h⟩)
    -- the other candidates are still queued, under other ids
    obtain ⟨final, hfinal, hview, hlength⟩ := ih updated
      (fun p hp => by
        obtain ⟨hpm, hpq⟩ := hmem p (by simp [hp])
        exact ⟨Table.mem_update?_of_not hupdated hpm (by simp [hrest p hp]), hpq⟩)
      hids.2 hleases.2 (fun p hp row hrow => by
        obtain ⟨old, hold, heq⟩ := (Table.mem_update? hupdated).mp hrow
        rw [← heq]
        split
        · intro h
          exact hleases.1 (List.mem_map.mpr ⟨p, hp, (Option.some.inj h).symm⟩)
        · exact hfresh p (by simp [hp]) old hold)
    refine ⟨final, ?_, fun k => ?_, ?_⟩
    · rw [leaseCandidates]
      simp only [hupdated, hfinal, find?_candidate hcandidate hqueued, List.map_cons]
    · rw [hview]
      show ((updated.lookup InboxRow.messageId k).map _) = _
      rw [hlookup, Option.map_map]
      show (inboxRow k inbox).map _ = _
      refine Option.map_congr fun row hrow => ?_
      obtain ⟨hrowmem, hrowid⟩ := inboxRow_eq_some.mp hrow
      -- only the first candidate's row is not left to the induction
      by_cases hk : candidate.messageId = k
      · have hsame : row = candidate := Table.eq_of_conflict hrowmem hcandidate
          (InboxRow.isKey_messageId _ _ (hrowid.trans hk.symm))
        have hnone : pairs.find? (fun p => p.1.messageId = k) = none := by
          refine List.find?_eq_none.mpr fun p hp h => ?_
          exact hrest p hp ((of_decide_eq_true h).trans hk.symm)
        have hmet : (decide (row.messageId = candidate.messageId) &&
            decide (row.status = .queued)) = true := by
          rw [hsame]
          simp [hqueued]
        rw [List.find?_cons_of_pos (by simpa using hk)]
        simp only [Function.comp_apply, hmet, if_true, hnone]
      · have hnot : row.messageId ≠ candidate.messageId := by
          rw [hrowid]
          exact fun h => hk h.symm
        rw [List.find?_cons_of_neg (by simpa using hk)]
        simp only [Function.comp_apply, hnot, decide_false, Bool.false_and, Bool.false_eq_true,
          if_false]
    · rw [hlength, hrows, List.length_map]

instance (collation : Collation) : Std.Total (inOrder collation) where
  total a b := by
    rcases lt_trichotomy a.createdAt b.createdAt with hlt | heq | hgt
    · exact Or.inl (Or.inl hlt)
    · rcases collation.total a.messageId b.messageId with hle | hle
      · exact Or.inl (Or.inr ⟨heq, hle⟩)
      · exact Or.inr (Or.inr ⟨heq.symm, hle⟩)
    · exact Or.inr (Or.inl hgt)

instance (collation : Collation) : IsTrans InboxRow (inOrder collation) where
  trans a b c hab hbc := by
    rcases hab with hab | ⟨hab, hle⟩
    · rcases hbc with hbc | ⟨hbc, -⟩
      · exact Or.inl (lt_trans hab hbc)
      · exact Or.inl (by rwa [← hbc])
    · rcases hbc with hbc | ⟨hbc, hle'⟩
      · exact Or.inl (by rwa [hab])
      · exact Or.inr ⟨hab.trans hbc, collation.trans _ _ _ hle hle'⟩

theorem mem_candidates {collation : Collation} {now : Instant} {batchSize : Nat}
    {inbox : Table InboxRow} {row : InboxRow}
    (h : row ∈ candidates collation now batchSize inbox) :
    row ∈ inbox ∧ row.status = .queued ∧ row.availableAt ≤ now := by
  have hsorted := List.mem_of_mem_take h
  rw [List.mem_insertionSort, List.mem_filter] at hsorted
  obtain ⟨hmem, havailable⟩ := hsorted
  simp only [isAvailable, Bool.and_eq_true, decide_eq_true_eq] at havailable
  exact ⟨hmem, havailable⟩

theorem candidates_nodup (collation : Collation) (now : Instant) (batchSize : Nat)
    (inbox : Table InboxRow) :
    ((candidates collation now batchSize inbox).map InboxRow.messageId).Nodup := by
  have hrows : (inbox.rows.map InboxRow.messageId).Nodup := by
    refine List.pairwise_map.mpr (inbox.unique.imp fun hab h => ?_)
    rw [InboxRow.isKey_messageId _ _ h] at hab
    exact Bool.noConfusion hab
  have hsub : ((inbox.rows.filter (isAvailable now)).map InboxRow.messageId).Nodup :=
    hrows.sublist (List.filter_sublist.map _)
  have hsorted : (((inbox.rows.filter (isAvailable now)).insertionSort
      (inOrder collation)).map InboxRow.messageId).Nodup :=
    ((List.perm_insertionSort (inOrder collation) _).map _).nodup_iff.mpr hsub
  exact hsorted.sublist ((List.take_sublist _ _).map _)

/-- The rows that a pull chooses, each with the lease id drawn for it. -/
def chosen (collation : Collation) (now : Instant) (leaseIds : Nat → String) (input : PullInput)
    (inbox : Table InboxRow) : List (InboxRow × String) :=
  (candidates collation now input.batchSize (releaseExpired now inbox)).mapIdx fun i row =>
    (row, leaseIds i)

section Pull

variable {collation : Collation} {now : Instant} {leaseIds : Nat → String} {input : PullInput}
  {inbox : Table InboxRow}

theorem chosen_fst (leaseIds : Nat → String) :
    (chosen collation now leaseIds input inbox).map Prod.fst =
      candidates collation now input.batchSize (releaseExpired now inbox) := by
  rw [chosen, List.mapIdx_eq_zipIdx_map, List.map_map]
  exact List.zipIdx_map_fst 0 _

theorem chosen_nodup :
    ((chosen collation now leaseIds input inbox).map fun p => p.1.messageId).Nodup := by
  have := candidates_nodup collation now input.batchSize (releaseExpired now inbox)
  rwa [← chosen_fst leaseIds, List.map_map] at this

/-- A chosen row is in the queue once the expired leases are released; its lease id was drawn. -/
theorem mem_chosen {p : InboxRow × String} (h : p ∈ chosen collation now leaseIds input inbox) :
    (p.1 ∈ releaseExpired now inbox ∧ p.1.status = .queued ∧ p.1.availableAt ≤ now) ∧
      ∃ i < input.batchSize, leaseIds i = p.2 := by
  obtain ⟨i, hi, heq⟩ := List.mem_mapIdx.mp h
  have hlen : i < input.batchSize := by
    have := List.length_take_le input.batchSize
      (((releaseExpired now inbox).rows.filter (isAvailable now)).insertionSort (inOrder collation))
    exact Nat.lt_of_lt_of_le hi this
  rw [← heq]
  exact ⟨mem_candidates (List.getElem_mem hi), i, hlen, rfl⟩

/-- A pull with new lease ids never fails: it leases the rows that it chooses. -/
theorem pull_eq (collation : Collation) (now : Instant) (input : PullInput) (hinj : Function.Injective leaseIds)
    (hfresh : ∀ i, ∀ row ∈ inbox, row.leaseId ≠ some (leaseIds i)) :
    let pairs := chosen collation now leaseIds input inbox
    let leaseUntil := now + input.visibilityTimeoutMs
    ∃ final,
      pull collation now leaseIds input inbox =
        .ok ({ backlogCount := inbox.rows.length
               messages := pairs.map fun p => leaseOf p.2 (p.1.lease p.2 leaseUntil now) }, final) ∧
      ∀ k, inboxRow k final = (inboxRow k (releaseExpired now inbox)).map fun row =>
        match pairs.find? fun p => p.1.messageId = k with
        | some p => row.lease p.2 leaseUntil now
        | none => row := by
  intro pairs leaseUntil
  have hids : (pairs.map fun p => p.1.messageId).Nodup := chosen_nodup
  have hleases : (pairs.map Prod.snd).Nodup := by
    show (List.map Prod.snd (List.mapIdx _ _)).Nodup
    rw [List.mapIdx_eq_zipIdx_map, List.map_map]
    refine List.Nodup.map_on ?_ ?_
    · rintro ⟨a, i⟩ ha ⟨b, j⟩ hb hij
      -- two places draw two lease ids
      have hsame : i = j := hinj hij
      subst hsame
      have hai := List.mem_zipIdx' ha
      have hbj := List.mem_zipIdx' hb
      rw [hai.2, hbj.2]
    · exact List.Nodup.of_map Prod.snd (by simp [List.nodup_range'])
  obtain ⟨final, hfinal, hrows, hlength⟩ := leaseCandidates_eq now leaseUntil pairs
    (releaseExpired now inbox)
    (fun p hp => ⟨(mem_chosen hp).1.1, (mem_chosen hp).1.2.1⟩) hids hleases
    (fun p hp row hrow h => by
      obtain ⟨-, i, -, hi⟩ := mem_chosen hp
      obtain ⟨old, hold, heq⟩ := Table.mem_update.mp hrow
      rw [← heq, ← hi] at h
      split at h
      · cases h
      · exact hfresh i old hold h)
  refine ⟨final, ?_, hrows⟩
  -- leasing adds and removes no row, so the backlog is the inbox
  have hcount : final.rows.length = inbox.rows.length := by
    rw [hlength]
    exact List.length_map _
  have hleased : leaseCandidates now leaseUntil ((candidates collation now input.batchSize
      (releaseExpired now inbox)).mapIdx fun i row => (row, leaseIds i))
        (releaseExpired now inbox) = _ := hfinal
  simp only [pull, leaseUntil] at hleased ⊢
  rw [hleased]
  simp only [hcount]

end Pull

end Postgres

end InboxServer
