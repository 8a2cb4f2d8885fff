import InboxServer.Infra.Interleave
import InboxServer.Api.D1.Inbox
import InboxServer.Properties.Leases

/-!
# Leases that race on D1

Any number of pulls, settlements and stagings interleave, statement by statement. A lease statement
checks that the message is in the queue, and not that it is the message that the pull has read.

* `book_step` — a lease that nobody has settled and that has not run out is still on its row
* `lease_races_sound` — no message has two leases that are out, in any interleaving; and all the
  promises about leases, as long as each lease statement meets a row as the pull has read it
* `stale_candidate` — a retry between the read and the lease: the message comes before its delay,
  with an old number of attempts
-/

namespace InboxServer.D1

open Infra
open Postgres (InboxLease InboxSettlement isExpired holdsLease inboxRow_acks inboxRow_retries
  lease_messageId retryRow retryRow_of_not_held)

/-! ## Calls that interleave -/

/--
The inbox with what was seen of it: the latest reading of the clock, the leases that settlements have
named, and the rows as their leases have left them.
-/
structure LeaseBook where
  inbox : Table InboxRow
  latest : Instant
  named : List String
  granted : List InboxRow

/-- The leases that a step settles, if they are there. -/
def InboxStep.names : InboxStep → List String
  | settle _ settlement => settlement.acks ++ settlement.retries.map Postgres.InboxRetry.leaseId
  | _ => []

/-- The row of a message that was queued before a step and is leased after it, then and now. -/
def takenRow (messageId : String) (before after : Table InboxRow) : Option (InboxRow × InboxRow) :=
  match inboxRow messageId before, inboxRow messageId after with
  | some row, some row' =>
    if row.status = .queued ∧ row'.status = .leased then some (row, row') else none
  | _, _ => none

/-- The row that a step leases: as it finds it, and as it leaves it. -/
def InboxStep.leased (before after : Table InboxRow) : InboxStep → Option (InboxRow × InboxRow)
  | lease _ _ _ messageId => takenRow messageId before after
  | _ => none

def serveBook (collation : Collation) (now : Instant) (s : LeaseBook) (c : InboxStep) :
    LeaseBook × c.Answer :=
  let served := serveInbox collation now s.inbox c
  ({ inbox := served.1
     latest := max s.latest now
     named := s.named ++ c.names
     granted := s.granted ++ ((c.leased s.inbox served.1).map Prod.snd).toList }, served.2)

/-- A lease that is out: no settlement has named it, and it ends after every reading of the clock. -/
def LeaseBook.Outstanding (s : LeaseBook) (row : InboxRow) : Prop :=
  (∀ leaseId, row.leaseId = some leaseId → leaseId ∉ s.named) ∧
    ∃ leaseUntil, row.leaseUntil = some leaseUntil ∧ s.latest < leaseUntil

/-- No two leases of one message are out. -/
def LeaseBook.Alone (s : LeaseBook) : Prop :=
  s.granted.Pairwise fun a b => a.messageId = b.messageId → ¬ (s.Outstanding a ∧ s.Outstanding b)

/-- What a call has read of the clock and of the queue, and the rows that it has leased. -/
structure LeaseNote where
  timestamp : Option Instant
  selected : List InboxRow
  taken : List (InboxRow × InboxRow)

def LeaseNote.blank : LeaseNote := ⟨none, [], []⟩

def leaseNote : Watched.Note LeaseBook InboxStep InboxStep.Answer LeaseNote
  | note, _, .now, timestamp, _ => { note with timestamp := some timestamp }
  | note, _, .selectQueued .., rows, _ => { note with selected := rows }
  | note, before, c, _, after =>
    { note with taken := note.taken ++ (c.leased before.inbox after.inbox).toList }

/-- Calls of the inbox, each at its own place. -/
abbrev LeaseRace :=
  Watched ℕ LeaseBook InboxStep InboxStep.Answer InboxReply LeaseNote

abbrev leaseRaceMachine (collation : Collation) : Machine LeaseRace (ℕ × Instant) Unit :=
  Watched.machine (serveBook collation) leaseNote

/-- The calls before their first steps; the one at `i` draws its lease ids from `leaseIds i`. -/
def LeaseRace.start (inbox : Table InboxRow) (latest : Instant) (calls : ℕ → Option InboxCall)
    (leaseIds : ℕ → ℕ → String) : LeaseRace where
  pool :=
    { shared := { inbox, latest, named := [], granted := inbox.rows.filter (·.status = .leased) }
      procs := fun i => (calls i).map (inboxProgram (leaseIds i)) }
  notes _ := .blank

/-- What a pull reports is what the row has after the lease. -/
def Reports (lease : InboxLease) (taken : InboxRow × InboxRow) : Prop :=
  lease.id = taken.2.messageId ∧ taken.2.leaseId = some lease.leaseId ∧
    lease.attempts = taken.2.attempts ∧ lease.body = taken.2.body

instance (lease : InboxLease) (taken : InboxRow × InboxRow) : Decidable (Reports lease taken) :=
  inferInstanceAs (Decidable (_ ∧ _))

/-- The promises about leases. -/
structure LeaseRacesSound (w : LeaseRace) : Prop where
  alone : w.pool.shared.Alone
  /-- A pull returns no message that was to wait at its reading of the clock. -/
  due : ∀ i batch timestamp, w.result i = some (.pull (.ok batch)) →
    (w.notes i).timestamp = some timestamp →
    ∀ taken ∈ (w.notes i).taken, taken.1.availableAt ≤ timestamp
  /-- Each lease is reported as the row stands after it. -/
  reported : ∀ i batch, w.result i = some (.pull (.ok batch)) →
    List.Forall₂ Reports batch.messages (w.notes i).taken

/--
A queued row that a lease statement meets has what was read of the message: its attempts, its body,
and no later time to wait for, unless that has come by now.
-/
def InboxStep.MeetsRead (inbox : Table InboxRow) (selected : List InboxRow) : InboxStep → Prop
  | lease _ _ timestamp messageId => ∀ row ∈ inbox.rows, isQueued messageId row = true →
      ∀ read ∈ selected, read.messageId = messageId →
        (row.availableAt ≤ read.availableAt ∨ row.availableAt ≤ timestamp) ∧
          read.attempts = row.attempts ∧ read.body = row.body
  | _ => True

instance (inbox : Table InboxRow) (selected : List InboxRow) (c : InboxStep) :
    Decidable (c.MeetsRead inbox selected) := by
  unfold InboxStep.MeetsRead
  split <;> infer_instance

/-- The next step of a call leases no row that has changed since the call has read it. -/
def LeaseRace.Current (w : LeaseRace) (s : ℕ × Instant) : Prop :=
  match w.pool.procs s.1 with
  | some (.call c _) => c.MeetsRead w.pool.shared.inbox (w.notes s.1).selected
  | some (.ret _) | none => True

instance (w : LeaseRace) (s : ℕ × Instant) : Decidable (w.Current s) := by
  unfold LeaseRace.Current
  split <;> infer_instance

/-! ## One statement -/

section Step

variable {collation : Collation} {now : Instant} {inbox : Table InboxRow} {row : InboxRow}

theorem isQueued_iff {messageId : String} :
    isQueued messageId row = true ↔ row.messageId = messageId ∧ row.status = .queued := by
  simp [isQueued]

theorem mem_insertMessage (timestamp : Instant) (message : Postgres.InboxMessage)
    (h : row ∈ inbox) : row ∈ insertMessage timestamp inbox message := by
  unfold insertMessage
  cases hins : inbox.insert? _ with
  | none => exact h
  | some inbox' => exact (Table.mem_insert? hins).mpr (Or.inl h)

/-- A leased row stays as it is, unless its lease has run out or is settled. -/
theorem mem_serveInbox {c : InboxStep} (hmem : row ∈ inbox) (hleased : row.status = .leased)
    (hexpired : ∀ timestamp, c = .releaseExpired timestamp → isExpired timestamp row = false)
    (hnamed : ∀ leaseId ∈ c.names, row.leaseId ≠ some leaseId) :
    row ∈ (serveInbox collation now inbox c).1 := by
  cases c with
  | now | selectQueued | count => exact hmem
  | releaseExpired timestamp => exact Table.mem_update_of_not hmem (hexpired timestamp rfl)
  | lease leaseId leaseUntil timestamp messageId =>
    simp only [serveInbox, leaseMessage]
    cases hupdate : inbox.update? (isQueued messageId)
        (InboxRow.lease leaseId leaseUntil timestamp) with
    | none => exact hmem
    | some updated => exact Table.mem_update?_of_not hupdate hmem (by simp [isQueued, hleased])
  | settle timestamp settlement =>
    have hfree : ∀ leaseId ∈ settlement.acks ++
        settlement.retries.map Postgres.InboxRetry.leaseId, holdsLease leaseId row = false := by
      intro leaseId hmem'
      simp [holdsLease, hnamed leaseId hmem']
    have hacks : settlement.acks.any (fun leaseId => holdsLease leaseId row) = false :=
      List.any_eq_false.mpr fun leaseId h => by
        rw [hfree leaseId (List.mem_append_left _ h)]
        exact Bool.false_ne_true
    have hretries : retryRow timestamp settlement.retries row = row :=
      retryRow_of_not_held fun retry h =>
        hfree _ (List.mem_append_right _ (List.mem_map_of_mem h))
    have hrow : inboxRow row.messageId inbox = some row := inboxRow_eq_some.mpr ⟨hmem, rfl⟩
    have hafter : inboxRow row.messageId (serveInbox collation now inbox
        (.settle timestamp settlement)).1 = some row := by
      simp only [serveInbox]
      rw [inboxRow_retries, inboxRow_acks, hrow, Option.filter_some_pos (by simp [hacks]),
        Option.map_some, hretries]
    exact (inboxRow_eq_some.mp hafter).1
  | stage timestamp messages =>
    show row ∈ messages.foldl (insertMessage timestamp) inbox
    induction messages generalizing inbox with
    | nil => exact hmem
    | cons message messages ih =>
      exact ih (mem_insertMessage timestamp message hmem)
        (fun _ h => by cases h) (fun _ h => absurd h List.not_mem_nil)

end Step

/-! ## Leases that are out -/

/-- A lease that is out is on its row, and no other lease of the message is out. -/
structure BookInv (s : LeaseBook) : Prop where
  held : ∀ row ∈ s.granted, s.Outstanding row → row ∈ s.inbox ∧ row.status = .leased
  alone : s.Alone

section Book

variable {collation : Collation} {now : Instant} {s : LeaseBook} {c : InboxStep} {row : InboxRow}

/-- A step takes leases out of circulation, and puts none back. -/
theorem outstanding_before (h : (serveBook collation now s c).1.Outstanding row) :
    s.Outstanding row := by
  obtain ⟨hnamed, leaseUntil, huntil, hlatest⟩ := h
  refine ⟨fun leaseId hlease hmem => ?_, leaseUntil, huntil, ?_⟩
  · exact hnamed leaseId hlease (List.mem_append_left _ hmem)
  · exact lt_of_le_of_lt (le_max_left _ _) hlatest

/-- A row that a step leases was queued, and is in the inbox after it. -/
theorem leased_spec {before after : Table InboxRow} {taken : InboxRow × InboxRow}
    (h : c.leased before after = some taken) :
    taken.1 ∈ before ∧ taken.1.status = .queued ∧ taken.2 ∈ after ∧ taken.2.status = .leased ∧
      taken.2.messageId = taken.1.messageId := by
  cases c with
  | lease leaseId leaseUntil timestamp messageId =>
    simp only [InboxStep.leased, takenRow] at h
    split at h
    · next row row' hbefore hafter =>
      simp only [Option.ite_none_right_eq_some, Option.some.injEq] at h
      obtain ⟨⟨hqueued, hleased⟩, rfl⟩ := h
      obtain ⟨hmem, hid⟩ := inboxRow_eq_some.mp hbefore
      obtain ⟨hmem', hid'⟩ := inboxRow_eq_some.mp hafter
      exact ⟨hmem, hqueued, hmem', hleased, hid'.trans hid.symm⟩
    · cases h
  | now | releaseExpired | selectQueued | count | settle | stage => cases h

/-- **A step of a call keeps the book in order**, if it releases what has run out and no more. -/
theorem book_step (hinv : BookInv s)
    (hrelease : ∀ timestamp, c = .releaseExpired timestamp → timestamp ≤ s.latest) :
    BookInv (serveBook collation now s c).1 := by
  have hstays : ∀ row ∈ s.granted, (serveBook collation now s c).1.Outstanding row →
      row ∈ (serveInbox collation now s.inbox c).1 ∧ row.status = .leased := by
    intro row hrow hout
    obtain ⟨hmem, hleased⟩ := hinv.held row hrow (outstanding_before hout)
    refine ⟨mem_serveInbox hmem hleased ?_ ?_, hleased⟩
    · rintro timestamp rfl
      obtain ⟨-, leaseUntil, huntil, hlate⟩ := outstanding_before hout
      have hle := hrelease timestamp rfl
      rw [Bool.eq_false_iff]
      intro hexpired
      obtain ⟨-, leaseUntil', huntil', hend⟩ := isExpired_iff.mp hexpired
      rw [huntil] at huntil'
      cases huntil'
      exact absurd (lt_of_lt_of_le hlate hend) (not_lt.mpr hle)
    · intro leaseId hnamed hlease
      exact hout.1 leaseId hlease (List.mem_append_right _ hnamed)
  have hold : s.granted.Pairwise fun a b => a.messageId = b.messageId →
      ¬ ((serveBook collation now s c).1.Outstanding a ∧
        (serveBook collation now s c).1.Outstanding b) :=
    hinv.alone.imp fun h hid hout =>
      h hid ⟨outstanding_before hout.1, outstanding_before hout.2⟩
  have hgranted : (serveBook collation now s c).1.granted =
      s.granted ++ ((c.leased s.inbox (serveInbox collation now s.inbox c).1).map
        Prod.snd).toList := rfl
  cases htaken : c.leased s.inbox (serveInbox collation now s.inbox c).1 with
  | none =>
    rw [htaken] at hgranted
    simp only [Option.map_none, Option.toList_none, List.append_nil] at hgranted
    exact ⟨by rw [hgranted]; exact hstays, by rw [LeaseBook.Alone, hgranted]; exact hold⟩
  | some taken =>
    rw [htaken] at hgranted
    simp only [Option.map_some, Option.toList_some] at hgranted
    obtain ⟨hbefore, hqueued, hafter, hleased, hid⟩ := leased_spec htaken
    constructor
    · intro row hrow hout
      rw [hgranted, List.mem_append, List.mem_singleton] at hrow
      rcases hrow with hrow | rfl
      · exact hstays row hrow hout
      · exact ⟨hafter, hleased⟩
    · rw [LeaseBook.Alone, hgranted, List.pairwise_append]
      refine ⟨hold, List.pairwise_singleton _ _, fun a ha b hb hsame hout => ?_⟩
      -- the row was queued, so an older lease of the message is not on it
      rw [List.mem_singleton.mp hb, hid] at hsame
      obtain ⟨hmem, hstatus⟩ := hinv.held a ha (outstanding_before hout.1)
      have hrow : a = taken.1 :=
        Table.eq_of_conflict hmem hbefore (InboxRow.isKey_messageId _ _ hsame)
      rw [hrow, hqueued] at hstatus
      cases hstatus

end Book

/-! ## What a call knows -/

/-- The rows that a call has leased were due, and are reported as they stand. -/
structure Taken (timestamp : Instant) (taken : List (InboxRow × InboxRow))
    (messages : List InboxLease) : Prop where
  due : ∀ row ∈ taken, row.1.availableAt ≤ timestamp
  reported : List.Forall₂ Reports messages taken

/--
Where a call stands, with its note, when the latest reading of the clock is `latest`. What it has
leased is as it should be in a run that is `checked`.
-/
inductive LeaseStage (checked : Prop) (latest : Instant) :
    LeaseNote → Prog InboxStep InboxStep.Answer InboxReply → Prop
  | start (leaseIds : ℕ → String) (call : InboxCall) :
      LeaseStage checked latest .blank (inboxProgram leaseIds call)
  | releasing {timestamp : Instant} (past : timestamp ≤ latest) (leaseIds : ℕ → String)
      (input : Postgres.PullInput) :
      LeaseStage checked latest ⟨some timestamp, [], []⟩
        (.call (.releaseExpired timestamp) fun _ =>
          .call (.selectQueued timestamp input.batchSize) fun rows =>
            (leaseSelected leaseIds input timestamp rows).bind fun reply => .ret (.pull reply))
  | selecting {timestamp : Instant} (leaseIds : ℕ → String) (input : Postgres.PullInput) :
      LeaseStage checked latest ⟨some timestamp, [], []⟩
        (.call (.selectQueued timestamp input.batchSize) fun rows =>
          (leaseSelected leaseIds input timestamp rows).bind fun reply => .ret (.pull reply))
  | leasing {timestamp leaseUntil : Instant} {selected : List InboxRow}
      {taken : List (InboxRow × InboxRow)} {messages : List InboxLease}
      {pairs : List (InboxRow × String)} (sound : checked → Taken timestamp taken messages)
      (due : ∀ row ∈ selected, row.availableAt ≤ timestamp)
      (read : ∀ p ∈ pairs, p.1 ∈ selected) :
      LeaseStage checked latest ⟨some timestamp, selected, taken⟩
        ((leaseRows timestamp leaseUntil pairs messages).bind fun reply => .ret (.pull reply))
  | pulled {timestamp : Instant} {selected : List InboxRow} {taken : List (InboxRow × InboxRow)}
      {batch : Postgres.InboxBatch} (sound : checked → Taken timestamp taken batch.messages) :
      LeaseStage checked latest ⟨some timestamp, selected, taken⟩ (.ret (.pull (.ok batch)))
  | settling {note : LeaseNote} (timestamp : Instant) (settlement : InboxSettlement) :
      LeaseStage checked latest note
        (.call (.settle timestamp settlement) fun _ => .ret (.settle (.ok ())))
  | staging {note : LeaseNote} (timestamp : Instant) (messages : List Postgres.InboxMessage) :
      LeaseStage checked latest note
        (.call (.stage timestamp messages) fun _ => .ret (.stage (.ok ())))
  | returned {note : LeaseNote} {reply : InboxReply}
      (empty : ∀ batch, reply ≠ .pull (.ok batch)) : LeaseStage checked latest note (.ret reply)

section Stage

variable {checked : Prop} {collation : Collation} {now : Instant} {s : LeaseBook} {c : InboxStep}

/-- A lease statement leases the row that it meets in the queue, or changes nothing. -/
theorem leaseMessage_cases (leaseId : String) (leaseUntil timestamp : Instant) (messageId : String)
    (inbox : Table InboxRow) :
    let served := leaseMessage leaseId leaseUntil timestamp messageId inbox
    (served.2 ≠ some 1 ∧ takenRow messageId inbox served.1 = none) ∨
      ∃ row ∈ inbox.rows, isQueued messageId row = true ∧ served.2 = some 1 ∧
        takenRow messageId inbox served.1 = some (row, row.lease leaseId leaseUntil timestamp) := by
  unfold leaseMessage
  cases hupdate : inbox.update? (isQueued messageId)
      (InboxRow.lease leaseId leaseUntil timestamp) with
  | none =>
    refine Or.inl ⟨(fun h => by cases h), ?_⟩
    unfold takenRow
    split
    · next row row' hbefore hafter =>
      rw [hbefore] at hafter
      cases hafter
      rw [if_neg]
      rintro ⟨hqueued, hleased⟩
      rw [hqueued] at hleased
      cases hleased
    · rfl
  | some updated =>
    have hcount : inbox.rows.countP (isQueued messageId) =
        (inboxRow messageId inbox).elim 0 fun row => if row.status = .queued then 1 else 0 := by
      have := Table.countP_key (t := inbox) InboxRow.isKey_messageId messageId
        fun row => decide (row.status = .queued)
      simp only [decide_eq_true_eq] at this
      exact this
    have hafter : inboxRow messageId updated = (inboxRow messageId inbox).map fun row =>
        if isQueued messageId row then row.lease leaseId leaseUntil timestamp else row :=
      Table.lookup_update? hupdate (lease_messageId leaseId leaseUntil timestamp) messageId
    cases hrow : inboxRow messageId inbox with
    | none =>
      rw [hrow] at hcount
      exact Or.inl ⟨by simp [hcount], by simp [takenRow, hrow]⟩
    | some row =>
      obtain ⟨hmem, hid⟩ := inboxRow_eq_some.mp hrow
      rw [hrow] at hcount hafter
      by_cases hqueued : row.status = .queued
      · have hmet : isQueued messageId row = true := isQueued_iff.mpr ⟨hid, hqueued⟩
        rw [Option.map_some, if_pos hmet] at hafter
        refine Or.inr ⟨row, hmem, hmet, by simp [hcount, hqueued], ?_⟩
        simp [takenRow, hrow, hafter, hqueued, InboxRow.lease]
      · have hmiss : ¬ isQueued messageId row = true := fun h => hqueued (isQueued_iff.mp h).2
        rw [Option.map_some, if_neg hmiss] at hafter
        refine Or.inl ⟨by simp [hcount, hqueued], ?_⟩
        simp [takenRow, hrow, hafter, hqueued]

/-- A row that is leased and reported as it was read adds to what was taken. -/
theorem Taken.lease {timestamp leaseUntil : Instant} {taken : List (InboxRow × InboxRow)}
    {messages : List InboxLease} (h : Taken timestamp taken messages) {row met : InboxRow}
    (leaseId : String) (hid : met.messageId = row.messageId) (hdue : met.availableAt ≤ timestamp)
    (hattempts : row.attempts = met.attempts) (hbody : row.body = met.body) :
    Taken timestamp (taken ++ [(met, met.lease leaseId leaseUntil timestamp)])
      (messages ++ [reportLease leaseId row]) := by
  refine ⟨fun p hp => ?_, ?_⟩
  · rw [List.mem_append, List.mem_singleton] at hp
    rcases hp with hp | rfl
    · exact h.due p hp
    · exact hdue
  · refine List.rel_append h.reported (.cons ?_ .nil)
    exact ⟨hid.symm, rfl, congrArg (· + 1) hattempts, hbody⟩

/-- After a lease statement the loop goes on with the other candidates, or the pull throws. -/
theorem leaseStage_leased {latest timestamp leaseUntil : Instant} {selected : List InboxRow}
    {taken : List (InboxRow × InboxRow)} {messages : List InboxLease} {row : InboxRow}
    {leaseId : String} {pairs : List (InboxRow × String)}
    (sound : checked → Taken timestamp taken messages)
    (due : ∀ row ∈ selected, row.availableAt ≤ timestamp)
    (hrest : ∀ p ∈ pairs, p.1 ∈ selected) (hread : row ∈ selected)
    (hcurrent : checked → InboxStep.MeetsRead s.inbox selected
      (.lease leaseId leaseUntil timestamp row.messageId)) :
    LeaseStage checked latest
      ⟨some timestamp, selected, taken ++ (takenRow row.messageId s.inbox (leaseMessage leaseId
        leaseUntil timestamp row.messageId s.inbox).1).toList⟩
      (Prog.bind (whenLeased (leaseMessage leaseId leaseUntil timestamp row.messageId s.inbox).2
        (leaseRows timestamp leaseUntil pairs (messages ++ [reportLease leaseId row]))
        (leaseRows timestamp leaseUntil pairs messages)) fun reply => .ret (.pull reply)) := by
  -- the UPDATE met a queued row with this id, or none
  rcases leaseMessage_cases leaseId leaseUntil timestamp row.messageId s.inbox with
    ⟨hmissed, htaken⟩ | ⟨met, hmem, hmet, hanswer, htaken⟩
  · rw [htaken, Option.toList_none, List.append_nil]
    cases hanswer : (leaseMessage leaseId leaseUntil timestamp row.messageId s.inbox).2 with
    | none => exact .returned fun _ h => by cases h
    | some changes =>
      rw [hanswer] at hmissed
      have hne : changes ≠ 1 := fun h => hmissed (congrArg some h)
      rw [whenLeased, if_neg hne]
      exact .leasing sound due hrest
  · rw [htaken, hanswer, whenLeased, if_pos rfl]
    refine .leasing (fun hchecked => ?_) due hrest
    -- the row it met is compared with the one the SELECT read
    obtain ⟨hwait, hattempts, hbody⟩ := hcurrent hchecked met hmem hmet row hread rfl
    have hdue : met.availableAt ≤ timestamp := by
      rcases hwait with hwait | hdue
      · exact le_trans hwait (due row hread)
      · exact hdue
    exact (sound hchecked).lease leaseId (isQueued_iff.mp hmet).1 hdue hattempts hbody

/-- **What a call knows after its next step.** -/
theorem leaseStage_step {note : LeaseNote}
    {k : c.Answer → Prog InboxStep InboxStep.Answer InboxReply}
    (h : LeaseStage checked s.latest note (.call c k))
    (hcurrent : checked → c.MeetsRead s.inbox note.selected) :
    LeaseStage checked (serveBook collation now s c).1.latest
      (leaseNote note s c (serveBook collation now s c).2 (serveBook collation now s c).1)
      (k (serveBook collation now s c).2) := by
  -- the stage tells which statement is next, so the cases follow the program
  generalize hp : Prog.call c k = p at h
  cases h with
  | start leaseIds call =>
    cases call with
    | pull input =>
      cases hp
      exact .releasing (le_max_right _ _) leaseIds input
    | stage messages =>
      simp only [inboxProgram, stage] at hp
      split at hp
      · cases hp
      · cases hp
        exact .staging _ messages
    | settle settlement =>
      simp only [inboxProgram, settle] at hp
      split at hp
      · cases hp
      · cases hp
        show LeaseStage _ _ _ (Prog.bind (if _ then _ else _) _)
        split
        · exact .returned fun _ h => by cases h
        · exact .settling _ settlement
  | releasing past leaseIds input =>
    cases hp
    exact .selecting leaseIds input
  | @selecting timestamp leaseIds input =>
    cases hp
    refine .leasing (fun _ => ⟨fun _ h => absurd h List.not_mem_nil, .nil⟩)
      (fun row hrow => (Postgres.mem_candidates hrow).2.2) fun p hp => ?_
    obtain ⟨i, hi, heq⟩ := List.mem_mapIdx.mp hp
    rw [← heq]
    exact List.getElem_mem hi
  | @leasing timestamp leaseUntil selected taken messages pairs sound due read =>
    cases pairs with
    | nil =>
      cases hp
      have hsame : taken ++ [] = taken := List.append_nil taken
      exact .pulled (by rw [← hsame] at sound; exact sound)
    | cons p pairs =>
      obtain ⟨row, leaseId⟩ := p
      cases hp
      exact leaseStage_leased sound due (fun p hp => read p (List.mem_cons_of_mem _ hp))
        (read (row, leaseId) List.mem_cons_self) hcurrent
  | pulled | returned => cases hp
  | settling | staging =>
    cases hp
    exact .returned fun _ h => by cases h

/-- What a call has read was due earlier, so it is due later. -/
theorem LeaseStage.later {note : LeaseNote} {latest latest' : Instant}
    {p : Prog InboxStep InboxStep.Answer InboxReply} (h : LeaseStage checked latest note p)
    (hle : latest ≤ latest') : LeaseStage checked latest' note p := by
  cases h with
  | start leaseIds call => exact .start leaseIds call
  | releasing past leaseIds input => exact .releasing (le_trans past hle) leaseIds input
  | selecting leaseIds input => exact .selecting leaseIds input
  | leasing sound due read => exact .leasing sound due read
  | pulled sound => exact .pulled sound
  | settling timestamp settlement => exact .settling timestamp settlement
  | staging timestamp messages => exact .staging timestamp messages
  | returned empty => exact .returned empty

/-- A call releases what had run out when it read the clock. -/
theorem LeaseStage.release_le {note : LeaseNote} {latest timestamp : Instant}
    {k : c.Answer → Prog InboxStep InboxStep.Answer InboxReply}
    (h : LeaseStage checked latest note (.call c k)) (hc : c = .releaseExpired timestamp) :
    timestamp ≤ latest := by
  generalize hp : Prog.call c k = p at h
  cases h with
  | releasing past =>
    cases hp
    cases hc
    exact past
  | start leaseIds call =>
    cases call with
    | pull input =>
      cases hp
      cases hc
    | stage messages =>
      simp only [inboxProgram, stage] at hp
      split at hp <;> cases hp
      cases hc
    | settle settlement =>
      simp only [inboxProgram, settle] at hp
      split at hp <;> cases hp
      cases hc
  | @leasing timestamp leaseUntil selected taken messages pairs sound due read =>
    cases pairs <;> cases hp <;> cases hc
  | selecting | settling | staging =>
    cases hp
    cases hc
  | pulled | returned => cases hp

/-- A pull that has returned has reported what it has taken. -/
theorem LeaseStage.taken {note : LeaseNote} {latest : Instant} {batch : Postgres.InboxBatch}
    (h : LeaseStage checked latest note (.ret (.pull (.ok batch)))) (hchecked : checked) :
    ∃ timestamp, note.timestamp = some timestamp ∧
      Taken timestamp note.taken batch.messages := by
  generalize hp : Prog.ret (InboxReply.pull (.ok batch)) = p at h
  cases h with
  | pulled sound =>
    cases hp
    exact ⟨_, rfl, sound hchecked⟩
  | returned empty =>
    cases hp
    exact absurd rfl (empty batch)
  | start leaseIds call =>
    cases call with
    | pull input => cases hp
    | stage messages =>
      simp only [inboxProgram, stage] at hp
      split at hp <;> cases hp
    | settle settlement =>
      simp only [inboxProgram, settle] at hp
      split at hp <;> cases hp
  | @leasing timestamp leaseUntil selected taken messages pairs sound due read =>
    cases pairs <;> cases hp
  | releasing | selecting | settling | staging => cases hp

end Stage

/-- What holds in every run, and in those where each lease statement meets what its call has read. -/
def leaseOutline (collation : Collation) (checked : Prop) :
    ProofOutline (ι := ℕ) (α := InboxReply) (serveBook collation) leaseNote where
  admits w s := checked → LeaseRace.Current w s
  shared := BookInv
  at_ _ s note p := LeaseStage checked s.latest note p
  own w i now c k hcall hcurrent hbook hstage := by
    have hmeets : checked → c.MeetsRead w.pool.shared.inbox (w.notes i).selected := by
      intro hchecked
      have hcurrent := hcurrent hchecked
      simp only [LeaseRace.Current, hcall] at hcurrent
      exact hcurrent
    exact ⟨book_step hbook fun _ hc => hstage.release_le hc, leaseStage_step hstage hmeets⟩
  others _ _ _ _ _ _ _ _ _ _ _ _ _ hother := hother.later (le_max_left _ _)

/-! ## The promises -/

/-- At the start every call is at its first stage. -/
theorem LeaseRace.start_holds (collation : Collation) (checked : Prop) (inbox : Table InboxRow) (latest : Instant)
    (calls : ℕ → Option InboxCall) (leaseIds : ℕ → ℕ → String) :
    (leaseOutline collation checked).Holds (LeaseRace.start inbox latest calls leaseIds) := by
  refine ⟨⟨fun row hrow _ => ?_, ?_⟩, fun i p hp => ?_⟩
  · obtain ⟨hmem, hleased⟩ := List.mem_filter.mp hrow
    exact ⟨hmem, of_decide_eq_true hleased⟩
  · refine (inbox.unique.filter _).imp fun hapart hid => ?_
    rw [InboxRow.isKey_messageId _ _ hid] at hapart
    cases hapart
  · obtain ⟨call, -, rfl⟩ := Option.map_eq_some_iff.mp hp
    exact .start (leaseIds i) call

/--
**Leases that race.** From any inbox, for any calls in any interleaving, no message has two leases
that are out; and the promises about leases hold as long as each lease statement meets a row as its
pull has read it.
-/
theorem lease_races_sound (collation : Collation) (inbox : Table InboxRow) (latest : Instant)
    (calls : ℕ → Option InboxCall) (leaseIds : ℕ → ℕ → String) (steps : List (ℕ × Instant)) :
    ((leaseRaceMachine collation).run
        (LeaseRace.start inbox latest calls leaseIds) steps).pool.shared.Alone ∧
      ((leaseRaceMachine collation).Admits LeaseRace.Current
          (LeaseRace.start inbox latest calls leaseIds) steps →
        LeaseRacesSound ((leaseRaceMachine collation).run
          (LeaseRace.start inbox latest calls leaseIds) steps)) := by
  constructor
  · have hholds := ProofOutline.run (O := leaseOutline collation False)
      (LeaseRace.start_holds collation False inbox latest calls leaseIds)
      (Machine.Admits.mono (fun _ _ _ hfalse => hfalse.elim) (Machine.admits_true steps))
    exact hholds.1.alone
  · intro hcurrent
    have hholds := ProofOutline.run (O := leaseOutline collation True)
      (LeaseRace.start_holds collation True inbox latest calls leaseIds)
      (Machine.Admits.mono (fun _ _ h _ => h) hcurrent)
    refine ⟨hholds.1.alone, fun i batch timestamp hresult htimestamp => ?_, fun i batch hresult => ?_⟩
    · obtain ⟨timestamp', hread, htaken⟩ :=
        (hholds.2 i _ (Watched.result_eq_some.mp hresult)).taken trivial
      have hsame : timestamp' = timestamp := Option.some.inj (hread.symm.trans htimestamp)
      rw [← hsame]
      exact htaken.due
    · obtain ⟨_, _, htaken⟩ := (hholds.2 i _ (Watched.result_eq_some.mp hresult)).taken trivial
      exact htaken.reported

/-! ## A retry between the read and the lease -/

/-- Two pulls, a settlement that retries what the second one leases, and the staging of a message. -/
def racingCalls : ℕ → Option InboxCall
  | 0 | 1 => some Sample.pullOne
  | 2 => some (.settle ⟨[], [⟨some 100, Sample.leaseIds 10⟩]⟩)
  | 3 => some (.stage [Sample.message])
  | _ => none

/-- Each call draws its own lease ids. -/
def racingIds (i n : ℕ) : String := Sample.leaseIds (10 * i + n)

/-- The message is staged, leased by one pull, given back, and leased by the other. -/
def inTurn : List (ℕ × Instant) :=
  [(3, 0), (3, 0), (1, 1), (1, 1), (1, 1), (1, 1), (1, 1), (2, 2), (2, 2), (0, 200000), (0, 200000),
    (0, 200000), (0, 200000), (0, 200000)]

/-- The first pull reads the message before the second one leases it, and leases it afterwards. -/
def readEarly : List (ℕ × Instant) :=
  [(3, 0), (3, 0), (0, 1), (0, 1), (0, 1), (1, 1), (1, 1), (1, 1), (1, 1), (1, 1), (2, 2), (2, 2),
    (0, 3), (0, 3)]

theorem lease_races_sound_inTurn :
    LeaseRacesSound ((leaseRaceMachine codePoints).run
      (LeaseRace.start ∅ 0 racingCalls racingIds) inTurn) :=
  (lease_races_sound codePoints ∅ 0 racingCalls racingIds inTurn).2 (by decide +kernel)

theorem stale_candidate :
    ¬ LeaseRacesSound ((leaseRaceMachine codePoints).run
      (LeaseRace.start ∅ 0 racingCalls racingIds) readEarly) := by
  intro h
  have hdue := h.due 0 ⟨1, [⟨1, .str "body", "m", racingIds 0 0, 0⟩]⟩ 1 (by decide +kernel)
    (by decide +kernel)
  exact absurd hdue (by decide +kernel)

end InboxServer.D1
