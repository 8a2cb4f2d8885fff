import InboxServer.Api.Backend
import InboxServer.Properties.Inbox
import InboxServer.Worker.RateLimits

/-!
# Leases of the inbox

Any number of consumers stage, pull and settle, one call at a time. `MessageStep` says what one call
can do to the row of a message; every promise about leases is read off it, along a run.

* `messageStep` — the step of a message
* `leaseInv_run` — a row has a lease id and an end of its lease exactly while it is leased
* `not_before` — a message that waits until an instant is not handed out before it
* `leases_sound` — the promises, together
-/

namespace InboxServer

open Infra Postgres

/-! ## Calls of the inbox -/

/-- The inbox, and how many UUIDs were drawn. -/
structure InboxState where
  inbox : Table InboxRow
  drawn : Nat

/-- The state and the reply after a transaction on the inbox alone. -/
def transactInbox (s : InboxState) : Except ErrorText (Table InboxRow) →
    InboxState × Except ErrorText Unit
  | .ok inbox => ({ s with inbox }, .ok ())
  | .error text => (s, .error text)

/--
The calls of the inbox, one transaction each. The UUIDs come from `uuid`, in order: a pull sets one
aside for each place of its batch.
-/
def inboxMachine (collation : Collation) (uuid : Nat → String) :
    Machine InboxState (Instant × InboxCall) InboxReply where
  step
    | s, (now, .stage messages) =>
      let (s', reply) := transactInbox s (stage now messages s.inbox)
      (s', .stage reply)
    | s, (now, .pull input) =>
      match pull collation now (fun i => uuid (s.drawn + i)) input s.inbox with
      | .ok (batch, inbox) => ({ inbox, drawn := s.drawn + input.batchSize }, .pull (.ok batch))
      | .error text => (s, .pull (.error text))
    | s, (now, .settle settlement) =>
      let (s', reply) := transactInbox s (settle now settlement s.inbox)
      (s', .settle reply)

/-! ## One call and one message -/

theorem holdsLease_iff {leaseId : String} {row : InboxRow} :
    holdsLease leaseId row = true ↔ row.leaseId = some leaseId ∧ row.status = .leased := by
  simp [holdsLease]

/-- When a pull may take a row. -/
def Takeable (now : Instant) (row : InboxRow) : Prop :=
  (row.status = .queued ∧ row.availableAt ≤ now) ∨
    (row.status = .leased ∧ ∃ leaseUntil, row.leaseUntil = some leaseUntil ∧ leaseUntil ≤ now)

/-- The row with its lease fields set, and one attempt more. -/
structure LeasedAs (leaseId : String) (leaseUntil : Instant) (row after : InboxRow) : Prop where
  messageId : after.messageId = row.messageId
  body : after.body = row.body
  status : after.status = .leased
  leaseId : after.leaseId = some leaseId
  leaseUntil : after.leaseUntil = some leaseUntil
  attempts : after.attempts = row.attempts + 1

/--
What a call may do to the row of the message `k`, and what it hands out of it. The lease ids that
the call draws are those that satisfy `Drawn`.
-/
inductive MessageStep (k : String) (Drawn : String → Prop) (now : Instant) (call : InboxCall)
    (leases : List InboxLease) : Option InboxRow → Option InboxRow → Prop where
  | kept {before : Option InboxRow} (silent : ∀ lease ∈ leases, lease.id ≠ k) :
      MessageStep k Drawn now call leases before before
  | staged {messages : List InboxMessage} {message : InboxMessage}
      (silent : ∀ lease ∈ leases, lease.id ≠ k) (made : call = .stage messages)
      (mem : message ∈ messages) :
      MessageStep k Drawn now call leases none (some (InboxMessage.row now message))
  | released {input : PullInput} {row : InboxRow} (silent : ∀ lease ∈ leases, lease.id ≠ k)
      (made : call = .pull input) (takeable : Takeable now row) (leased : row.status = .leased) :
      MessageStep k Drawn now call leases (some row) (some (row.release now now))
  | leased {input : PullInput} {row after : InboxRow} {leaseId : String}
      (made : call = .pull input) (takeable : Takeable now row) (drawn : Drawn leaseId)
      (lease : LeasedAs leaseId (now + input.visibilityTimeoutMs) row after)
      (handed : leaseOf leaseId after ∈ leases)
      (only : ∀ lease ∈ leases, lease.id = k → lease = leaseOf leaseId after) :
      MessageStep k Drawn now call leases (some row) (some after)
  | acked {settlement : InboxSettlement} {row : InboxRow} {leaseId : String}
      (silent : ∀ lease ∈ leases, lease.id ≠ k) (made : call = .settle settlement)
      (mem : leaseId ∈ settlement.acks) (held : holdsLease leaseId row = true) :
      MessageStep k Drawn now call leases (some row) none
  | retried {settlement : InboxSettlement} {row : InboxRow} {retry : InboxRetry}
      (silent : ∀ lease ∈ leases, lease.id ≠ k) (made : call = .settle settlement)
      (mem : retry ∈ settlement.retries) (held : holdsLease retry.leaseId row = true) :
      MessageStep k Drawn now call leases (some row)
        (some (row.release (now + (retry.delaySeconds.getD 0) * 1000) now))

variable {collation : Collation} {uuid : Nat → String}

/-- A row is leased with a lease id that was drawn and an end, or queued without a lease. -/
def LeaseInv (uuid : Nat → String) (s : InboxState) : Prop :=
  ∀ row ∈ s.inbox,
    (row.status = .queued ∧ row.leaseId = none ∧ row.leaseUntil = none) ∨
    (row.status = .leased ∧ (∃ n < s.drawn, row.leaseId = some (uuid n)) ∧ row.leaseUntil.isSome)

/-- The lease ids that are drawn next are on no row. -/
theorem LeaseInv.fresh {s : InboxState} (hinv : LeaseInv uuid s)
    (hinj : Function.Injective uuid) (i : Nat) {row : InboxRow} (hrow : row ∈ s.inbox) :
    row.leaseId ≠ some (uuid (s.drawn + i)) := by
  intro h
  rcases hinv row hrow with ⟨-, hnone, -⟩ | ⟨-, ⟨n, hn, hlease⟩, -⟩
  · rw [hnone] at h
    cases h
  · rw [hlease] at h
    have := hinj (Option.some.inj h)
    omega

/-- The lease ids that a call may draw in a state. -/
def DrawnAt (uuid : Nat → String) (s s' : InboxState) (leaseId : String) : Prop :=
  ∃ n, s.drawn ≤ n ∧ n < s'.drawn ∧ uuid n = leaseId

variable {s : InboxState}

/-- What a pull does, with lease ids that are new. -/
theorem pull_run (collation : Collation) (hinv : LeaseInv uuid s) (hinj : Function.Injective uuid)
    (now : Instant) (input : PullInput) :
    let pairs := chosen collation now (fun i => uuid (s.drawn + i)) input s.inbox
    let leaseUntil := now + input.visibilityTimeoutMs
    ∃ final,
      (inboxMachine collation uuid).step s (now, .pull input) =
        ({ inbox := final, drawn := s.drawn + input.batchSize },
          .pull (.ok
            { backlogCount := s.inbox.rows.length
              messages := pairs.map fun p => leaseOf p.2 (p.1.lease p.2 leaseUntil now) })) ∧
      ∀ k, inboxRow k final = (inboxRow k (releaseExpired now s.inbox)).map fun row =>
        match pairs.find? fun p => p.1.messageId = k with
        | some p => row.lease p.2 leaseUntil now
        | none => row := by
  intro pairs leaseUntil
  have hfn : Function.Injective fun i => uuid (s.drawn + i) := fun i j h => by
    have := hinj h
    omega
  obtain ⟨final, hpull, hrows⟩ := pull_eq collation now input hfn
    fun i row hrow => hinv.fresh hinj i hrow
  refine ⟨final, ?_, hrows⟩
  show (match pull collation now (fun i => uuid (s.drawn + i)) input s.inbox with
    | .ok (batch, inbox) => _ | .error text => _) = _
  rw [hpull]

/-- The row of a message once the expired leases are released. -/
theorem inboxRow_releaseExpired (now : Instant) (inbox : Table InboxRow) (k : String) :
    inboxRow k (releaseExpired now inbox) =
      (inboxRow k inbox).map fun row => if isExpired now row then row.release now now else row :=
  Table.lookup_update (release_messageId now now) k

theorem isExpired_iff {now : Instant} {row : InboxRow} : isExpired now row = true ↔
    row.status = .leased ∧ ∃ leaseUntil, row.leaseUntil = some leaseUntil ∧ leaseUntil ≤ now := by
  simp only [isExpired, Bool.and_eq_true, decide_eq_true_eq, Option.any_eq_true]

/-- The step of a message at a pull. -/
theorem messageStep_pull (hinv : LeaseInv uuid s) (hinj : Function.Injective uuid) (now : Instant)
    (input : PullInput) (k : String) :
    MessageStep k
      (DrawnAt uuid s ((inboxMachine collation uuid).next s (now, .pull input))) now (.pull input)
      ((inboxMachine collation uuid).reply s (now, .pull input)).leases (inboxRow k s.inbox)
      (inboxRow k ((inboxMachine collation uuid).next s (now, .pull input)).inbox) := by
  -- a pull releases what is expired and then leases what it has chosen
  obtain ⟨final, hstep, hrows⟩ := pull_run collation hinv hinj now input
  rw [Machine.next, Machine.reply, hstep]
  show MessageStep k _ now _ (List.map _ _) _ (inboxRow k final)
  rw [hrows, inboxRow_releaseExpired]
  cases hbefore : inboxRow k s.inbox with
  | none =>
    refine .kept fun lease hlease hid => ?_
    obtain ⟨p, hp, heq⟩ := List.mem_map.mp hlease
    have hmem : inboxRow k (releaseExpired now s.inbox) = some p.1 :=
      inboxRow_eq_some.mpr ⟨(mem_chosen hp).1.1, by rw [← hid, ← heq]; rfl⟩
    rw [inboxRow_releaseExpired, hbefore] at hmem
    cases hmem
  | some row =>
    simp only [Option.map_some]
    cases hfind : (chosen collation now (fun i => uuid (s.drawn + i)) input s.inbox).find?
        fun p => p.1.messageId = k with
    | none =>
      have hsilent : ∀ lease ∈ (chosen collation now (fun i => uuid (s.drawn + i)) input
          s.inbox).map fun p => leaseOf p.2 (p.1.lease p.2 (now + input.visibilityTimeoutMs) now),
          lease.id ≠ k := by
        intro lease hlease hid
        obtain ⟨p, hp, heq⟩ := List.mem_map.mp hlease
        have hnot := List.find?_eq_none.mp hfind p hp
        rw [← heq] at hid
        exact hnot (decide_eq_true hid)
      -- not chosen: only an expired lease changes
      by_cases hexpired : isExpired now row = true
      · rw [if_pos hexpired]
        obtain ⟨hleased, huntil⟩ := isExpired_iff.mp hexpired
        exact .released hsilent rfl (Or.inr ⟨hleased, huntil⟩) hleased
      · rw [if_neg hexpired]
        exact .kept hsilent
    | some p =>
      have hp := List.mem_of_find?_eq_some hfind
      have hid : p.1.messageId = k := by simpa using List.find?_some hfind
      obtain ⟨⟨hmem, hqueued, havailable⟩, i, hi, hdrawn⟩ := mem_chosen hp
      have hrow : p.1 = if isExpired now row then row.release now now else row := by
        have hlookup := inboxRow_eq_some.mpr ⟨hmem, hid⟩
        rw [inboxRow_releaseExpired, hbefore] at hlookup
        exact (Option.some.inj hlookup).symm
      -- chosen: it was queued and due, or its lease had run out
      have htakeable : Takeable now row := by
        by_cases hexpired : isExpired now row = true
        · exact Or.inr (isExpired_iff.mp hexpired)
        · rw [if_neg hexpired] at hrow
          rw [hrow] at hqueued havailable
          exact Or.inl ⟨hqueued, havailable⟩
      have hlease : LeasedAs p.2 (now + input.visibilityTimeoutMs) row
          (p.1.lease p.2 (now + input.visibilityTimeoutMs) now) := by
        rw [hrow]
        split <;> exact ⟨rfl, rfl, rfl, rfl, rfl, rfl⟩
      rw [← hrow]
      refine .leased rfl htakeable ⟨s.drawn + i, by omega, Nat.add_lt_add_left hi _, hdrawn⟩ hlease
        (List.mem_map.mpr ⟨p, hp, rfl⟩) fun lease hmine hleaseid => ?_
      obtain ⟨q, hq, heq⟩ := List.mem_map.mp hmine
      -- one row is chosen once
      have hsame : q = p := by
        refine List.inj_on_of_nodup_map chosen_nodup hq hp ?_
        rw [hid, ← hleaseid, ← heq]
        rfl
      rw [← heq, hsame]

/-- What staging does to a message. -/
theorem messageStep_stage {Drawn : String → Prop} (now : Instant) (messages : List InboxMessage)
    (k : String) :
    MessageStep k Drawn now (.stage messages)
      ((inboxMachine collation uuid).reply s (now, .stage messages)).leases (inboxRow k s.inbox)
      (inboxRow k ((inboxMachine collation uuid).next s (now, .stage messages)).inbox) := by
  obtain ⟨inbox, hstage, hrows⟩ := lookup_stage now messages s.inbox
  have hnext : (inboxMachine collation uuid).next s (now, .stage messages) = { s with inbox } := by
    show (transactInbox s (stage now messages s.inbox)).1 = _
    rw [hstage]
    rfl
  have hsilent : ∀ lease ∈ ((inboxMachine collation uuid).reply s
      (now, .stage messages)).leases, lease.id ≠ k := fun lease h => absurd h List.not_mem_nil
  rw [hnext, hrows]
  cases hbefore : inboxRow k s.inbox with
  | some row => exact .kept hsilent
  | none =>
    cases hfind : messages.find? fun message => message.id = k with
    | none => exact .kept hsilent
    | some message => exact .staged hsilent rfl (List.mem_of_find?_eq_some hfind)

/-- A settlement that lists a lease twice, in both lists, is refused. -/
theorem settle_next_refused {now : Instant} {settlement : InboxSettlement} {retry : InboxRetry}
    (hmem : retry ∈ settlement.retries) (hack : retry.leaseId ∈ settlement.acks) :
    (inboxMachine collation uuid).step s (now, .settle settlement) =
      (s, .settle (.error "lease cannot be acknowledged and retried")) := by
  show (let (s', reply) := transactInbox s (settle now settlement s.inbox)
    (s', InboxReply.settle reply)) = _
  rw [settle_refused hmem hack]
  rfl

/-- Any other one drops the rows that it acknowledges, and requeues those that it retries. -/
theorem settle_next (collation : Collation) (uuid : Nat → String) (s : InboxState)
    (now : Instant) {settlement : InboxSettlement}
    (h : ∀ retry ∈ settlement.retries, retry.leaseId ∉ settlement.acks) :
    ∃ inbox, (inboxMachine collation uuid).step s (now, .settle settlement) =
        ({ s with inbox }, .settle (.ok ())) ∧
      ∀ k, inboxRow k inbox = ((inboxRow k s.inbox).filter fun row =>
        !settlement.acks.any fun leaseId => holdsLease leaseId row).map
          (retryRow now settlement.retries) := by
  obtain ⟨inbox, hsettle, hrows⟩ := lookup_settle h s.inbox
  refine ⟨inbox, ?_, hrows⟩
  show (let (s', reply) := transactInbox s (settle now settlement s.inbox)
    (s', InboxReply.settle reply)) = _
  rw [hsettle]
  rfl

/-- What a settlement does to a message. -/
theorem messageStep_settle {Drawn : String → Prop} (now : Instant) (settlement : InboxSettlement)
    (k : String) :
    MessageStep k Drawn now (.settle settlement)
      ((inboxMachine collation uuid).reply s (now, .settle settlement)).leases
      (inboxRow k s.inbox)
      (inboxRow k ((inboxMachine collation uuid).next s (now, .settle settlement)).inbox) := by
  have hsilent : ∀ lease ∈ ((inboxMachine collation uuid).reply s
      (now, .settle settlement)).leases, lease.id ≠ k := fun lease h => absurd h List.not_mem_nil
  by_cases hdistinct : ∀ retry ∈ settlement.retries, retry.leaseId ∉ settlement.acks
  · obtain ⟨inbox, hstep, hrows⟩ := settle_next collation uuid s now hdistinct
    rw [Machine.next, hstep, hrows]
    cases hbefore : inboxRow k s.inbox with
    | none => exact .kept hsilent
    | some row =>
      by_cases hacked : (settlement.acks.any fun leaseId => holdsLease leaseId row) = true
      · rw [Option.filter_some_neg (by simp [hacked])]
        obtain ⟨leaseId, hmem, hheld⟩ := List.any_eq_true.mp hacked
        exact .acked hsilent rfl hmem hheld
      · rw [Option.filter_some_pos (by simpa using hacked), Option.map_some, retryRow_eq]
        cases hfind : settlement.retries.find? fun retry => holdsLease retry.leaseId row with
        | none => exact .kept hsilent
        | some retry =>
          have hheld : holdsLease retry.leaseId row = true := by simpa using List.find?_some hfind
          exact .retried hsilent rfl (List.mem_of_find?_eq_some hfind) hheld
  · push Not at hdistinct
    obtain ⟨retry, hmem, hack⟩ := hdistinct
    rw [Machine.next, settle_next_refused hmem hack]
    exact .kept hsilent

/-- **What a call does to a message.** -/
theorem messageStep (collation : Collation) (hinv : LeaseInv uuid s)
    (hinj : Function.Injective uuid) (input : Instant × InboxCall) (k : String) :
    MessageStep k (DrawnAt uuid s ((inboxMachine collation uuid).next s input)) input.1 input.2
      ((inboxMachine collation uuid).reply s input).leases (inboxRow k s.inbox)
      (inboxRow k ((inboxMachine collation uuid).next s input).inbox) := by
  obtain ⟨now, call⟩ := input
  cases call with
  | stage messages => exact messageStep_stage now messages k
  | pull input => exact messageStep_pull hinv hinj now input k
  | settle settlement => exact messageStep_settle now settlement k

/-! ## The lease fields -/

/-- UUIDs are only ever drawn, never given back. -/
theorem drawn_le (input : Instant × InboxCall) :
    s.drawn ≤ ((inboxMachine collation uuid).next s input).drawn := by
  have htransact : ∀ result, (transactInbox s result).1.drawn = s.drawn := by
    intro result
    cases result <;> rfl
  obtain ⟨now, call⟩ := input
  cases call with
  | stage messages => exact (htransact _).ge
  | pull input =>
    show s.drawn ≤ (match pull collation now (fun i => uuid (s.drawn + i)) input s.inbox with
      | .ok (batch, inbox) => _ | .error text => _ : InboxState × InboxReply).1.drawn
    cases pull collation now (fun i => uuid (s.drawn + i)) input s.inbox with
    | error text => exact le_refl _
    | ok result => exact Nat.le_add_right _ _
  | settle settlement => exact (htransact _).ge

/-- Every call keeps the invariant of the leases. -/
theorem leaseInv_next (hinv : LeaseInv uuid s) (hinj : Function.Injective uuid)
    (input : Instant × InboxCall) : LeaseInv uuid ((inboxMachine collation uuid).next s input) := by
  intro row hrow
  have hdrawn : s.drawn ≤ ((inboxMachine collation uuid).next s input).drawn := drawn_le input
  have hafter := inboxRow_eq_some.mpr ⟨hrow, rfl⟩
  have hstep := messageStep collation hinv hinj input row.messageId
  rw [hafter] at hstep
  generalize hbefore : inboxRow row.messageId s.inbox = before at hstep
  cases hstep with
  | kept silent =>
    rcases hinv row (inboxRow_eq_some.mp hbefore).1 with hqueued | ⟨hleased, ⟨n, hn, hid⟩, huntil⟩
    · exact Or.inl hqueued
    · exact Or.inr ⟨hleased, ⟨n, by omega, hid⟩, huntil⟩
  | staged silent made mem => exact Or.inl ⟨rfl, rfl, rfl⟩
  | released silent made takeable leased => exact Or.inl ⟨rfl, rfl, rfl⟩
  | leased made takeable drawn lease handed only =>
    obtain ⟨n, -, hn, hid⟩ := drawn
    exact Or.inr ⟨lease.status, ⟨n, hn, by rw [lease.leaseId, hid]⟩, by rw [lease.leaseUntil]; rfl⟩
  | retried silent made mem held => exact Or.inl ⟨rfl, rfl, rfl⟩

/-! ## Waiting -/

/-- A message that no pull takes before `time`, as long as nobody names its lease. -/
def Waits (time : Instant) (lease : Option String) (row : InboxRow) : Prop :=
  row.leaseId = lease ∧
    ((row.status = .queued ∧ time ≤ row.availableAt) ∨
      (row.status = .leased ∧ ∃ leaseUntil, row.leaseUntil = some leaseUntil ∧ time ≤ leaseUntil))

/-- A message that waits is not takeable before its time. -/
theorem Waits.not_takeable {time now : Instant} {lease : Option String} {row : InboxRow}
    (h : Waits time lease row) (htake : Takeable now row) : time ≤ now := by
  obtain ⟨-, ⟨hqueued, hle⟩ | ⟨hleased, leaseUntil, huntil, hle⟩⟩ := h
  · rcases htake with ⟨-, havailable⟩ | ⟨hleased, -⟩
    · exact le_trans hle havailable
    · rw [hqueued] at hleased
      cases hleased
  · rcases htake with ⟨hqueued, -⟩ | ⟨-, other, hother, hpassed⟩
    · rw [hleased] at hqueued
      cases hqueued
    · rw [huntil] at hother
      rw [Option.some.inj hother] at hle
      exact le_trans hle hpassed

/-- A call that does not name its lease leaves a waiting message waiting, or comes late enough. -/
theorem Waits.step {time now : Instant} {lease : Option String} {k : String}
    {Drawn : String → Prop} {call : InboxCall} {leases : List InboxLease} {row : InboxRow}
    {after : Option InboxRow} (h : Waits time lease row)
    (hstep : MessageStep k Drawn now call leases (some row) after)
    (hnames : ∀ leaseId, lease = some leaseId → ¬ call.Names leaseId) :
    time ≤ now ∨
      ((∀ l ∈ leases, l.id ≠ k) ∧ ∃ row', after = some row' ∧ Waits time lease row') := by
  cases hstep with
  | kept silent => exact Or.inr ⟨silent, row, rfl, h⟩
  | released silent made takeable leased => exact Or.inl (h.not_takeable takeable)
  | leased made takeable drawn lease handed only => exact Or.inl (h.not_takeable takeable)
  | acked silent made mem held =>
    have hlease := (holdsLease_iff.mp held).1
    exact absurd (by rw [made]; exact Or.inl mem) (hnames _ (h.1.symm.trans hlease))
  | retried silent made mem held =>
    have hlease := (holdsLease_iff.mp held).1
    exact absurd (by rw [made]; exact Or.inr ⟨_, mem, rfl⟩) (hnames _ (h.1.symm.trans hlease))

/-- **A message that waits until an instant is not handed out before it.** -/
theorem not_before (hinj : Function.Injective uuid) {time : Instant} {lease : Option String}
    {k : String} {row : InboxRow} (hinv : LeaseInv uuid s) (hrow : inboxRow k s.inbox = some row)
    (h : Waits time lease row) (mid : List (Instant × InboxCall)) (last : Instant × InboxCall)
    (hnames : ∀ leaseId, lease = some leaseId → ∀ input ∈ mid, ¬ input.2.Names leaseId)
    (hlast : ∀ leaseId, lease = some leaseId → ¬ last.2.Names leaseId)
    (hclock : (mid ++ [last]).Pairwise fun a b => a.1 ≤ b.1)
    (hhanded : ∃ l ∈ ((inboxMachine collation uuid).reply
      ((inboxMachine collation uuid).run s mid) last).leases, l.id = k) : time ≤ last.1 := by
  induction mid generalizing s row with
  | nil =>
    have hstep := messageStep collation hinv hinj last k
    rw [hrow] at hstep
    rcases h.step hstep hlast with hle | ⟨hsilent, -⟩
    · exact hle
    · obtain ⟨l, hl, hid⟩ := hhanded
      exact absurd hid (hsilent l hl)
  | cons input mid ih =>
    have hstep := messageStep collation hinv hinj input k
    rw [hrow] at hstep
    obtain ⟨hfirst, hrest⟩ := List.pairwise_cons.mp hclock
    rcases h.step hstep (fun leaseId hsome => hnames leaseId hsome input List.mem_cons_self) with
      hle | ⟨-, row', hrow', hwaits⟩
    · exact le_trans hle (hfirst last (by simp))
    · exact ih (leaseInv_next hinv hinj input) hrow' hwaits
        (fun leaseId hsome other hother =>
          hnames leaseId hsome other (List.mem_cons_of_mem _ hother)) hrest hhanded

/-! ## Runs -/

section Runs

variable (collation uuid)

/-- The state after a list of calls, from an empty inbox. -/
def inboxAfter (calls : List (Instant × InboxCall)) : InboxState :=
  (inboxMachine collation uuid).run ⟨∅, 0⟩ calls

/-- The leases that a call hands out after others. -/
def handedOut (calls : List (Instant × InboxCall)) (input : Instant × InboxCall) :
    List InboxLease :=
  ((inboxMachine collation uuid).reply (inboxAfter collation uuid calls) input).leases

/-- How often the calls hand out the message. -/
def timesLeased (k : String) : InboxState → List (Instant × InboxCall) → Nat
  | _, [] => 0
  | s, input :: calls =>
    (if ((inboxMachine collation uuid).reply s input).leases.any (·.id = k) then 1 else 0) +
      timesLeased k ((inboxMachine collation uuid).next s input) calls

/-- What the inbox promises about leases, over all runs from an empty inbox. -/
structure LeasesSound : Prop where
  leasedFields : ∀ calls, ∀ row ∈ (inboxAfter collation uuid calls).inbox,
    (row.leaseId.isSome ↔ row.status = .leased) ∧ (row.leaseUntil.isSome ↔ row.status = .leased)
  /-- A lease that nobody names is not handed out again before its end. -/
  exclusive : ∀ pre now input mid last,
    (pre ++ (now, .pull input) :: mid ++ [last]).Pairwise (fun a b => a.1 ≤ b.1) →
    ∀ lease ∈ handedOut collation uuid pre (now, .pull input),
    (∃ again ∈ handedOut collation uuid (pre ++ (now, .pull input) :: mid) last,
      again.id = lease.id) →
    now + input.visibilityTimeoutMs ≤ last.1 ∨ ∃ other ∈ mid, other.2.Names lease.leaseId
  /-- A retry of the lease that a message has, the first one of its settlement, delays it. -/
  delayed : ∀ pre now settlement mid last,
    (pre ++ (now, .settle settlement) :: mid ++ [last]).Pairwise (fun a b => a.1 ≤ b.1) →
    (∀ retry ∈ settlement.retries, retry.leaseId ∉ settlement.acks) →
    ∀ row ∈ (inboxAfter collation uuid pre).inbox, ∀ retry,
    settlement.retries.find? (fun retry => holdsLease retry.leaseId row) = some retry →
    (∃ again ∈ handedOut collation uuid (pre ++ (now, .settle settlement) :: mid) last,
      again.id = row.messageId) →
    now + (retry.delaySeconds.getD 0) * 1000 ≤ last.1
  /-- The attempts count the leases of the message since it was staged. -/
  attempts : ∀ calls input, ∀ lease ∈ handedOut collation uuid calls input,
    ∃ start rest, calls = start ++ rest ∧
      inboxRow lease.id (inboxAfter collation uuid start).inbox = none ∧
      (∀ done, done <+: rest → done ≠ [] →
        inboxRow lease.id (inboxAfter collation uuid (start ++ done)).inbox ≠ none) ∧
      lease.attempts =
        timesLeased collation uuid lease.id (inboxAfter collation uuid start) rest + 1
  /-- A lease of a message that was handed out again is not its lease any more. -/
  superseded : ∀ pre first mid second post,
    ∀ lease ∈ handedOut collation uuid pre first,
    (∃ again ∈ handedOut collation uuid (pre ++ first :: mid) second, again.id = lease.id) →
    ∀ row ∈ (inboxAfter collation uuid (pre ++ first :: mid ++ second :: post)).inbox,
    row.messageId = lease.id → row.leaseId ≠ some lease.leaseId
  /-- A settlement leaves a message alone unless it names the lease that the message has. -/
  settleOthers : ∀ calls now settlement, ∀ row ∈ (inboxAfter collation uuid calls).inbox,
    (∀ leaseId, row.leaseId = some leaseId → ¬ (InboxCall.settle settlement).Names leaseId) →
    row ∈ (inboxAfter collation uuid (calls ++ [(now, .settle settlement)])).inbox
  /-- A message disappears by an acknowledgement of the lease that it has. -/
  disappears : ∀ calls input, ∀ row ∈ (inboxAfter collation uuid calls).inbox,
    inboxRow row.messageId (inboxAfter collation uuid (calls ++ [input])).inbox = none →
    ∃ settlement, input.2 = .settle settlement ∧
      ∃ leaseId ∈ settlement.acks, row.leaseId = some leaseId ∧ row.status = .leased
  /-- A message that is there is not touched by staging it again. -/
  restaged : ∀ calls now messages, ∀ row ∈ (inboxAfter collation uuid calls).inbox,
    row ∈ (inboxAfter collation uuid (calls ++ [(now, .stage messages)])).inbox
  /-- A settlement with a lease in both lists throws, and changes nothing. -/
  refused : ∀ calls now settlement,
    (∃ retry ∈ settlement.retries, retry.leaseId ∈ settlement.acks) →
    inboxAfter collation uuid (calls ++ [(now, .settle settlement)]) =
      inboxAfter collation uuid calls
  /-- A pull hands out the first messages, in order, of those that are available. -/
  first : ∀ calls now input,
    ∃ sorted : List InboxRow,
      sorted.Perm ((releaseExpired now (inboxAfter collation uuid calls).inbox).rows.filter
        (isAvailable now)) ∧
      sorted.Pairwise (inOrder collation) ∧
      (handedOut collation uuid calls (now, .pull input)).map
          (fun lease => (lease.id, lease.body, lease.timestampMs)) =
        (sorted.take input.batchSize).map fun row => (row.messageId, row.body, row.timestampMs)

end Runs

theorem inboxAfter_snoc (calls : List (Instant × InboxCall)) (input : Instant × InboxCall) :
    inboxAfter collation uuid (calls ++ [input]) =
      (inboxMachine collation uuid).next (inboxAfter collation uuid calls) input :=
  Machine.run_snoc _ _ _ _

theorem inboxAfter_append (calls more : List (Instant × InboxCall)) :
    inboxAfter collation uuid (calls ++ more) =
      (inboxMachine collation uuid).run (inboxAfter collation uuid calls) more :=
  Machine.run_append _ _ _ _

theorem leaseInv_run (hinj : Function.Injective uuid) (calls : List (Instant × InboxCall)) :
    LeaseInv uuid (inboxAfter collation uuid calls) := by
  induction calls using List.reverseRecOn with
  | nil => exact fun row h => absurd h Table.not_mem_empty
  | append_singleton calls input ih =>
    rw [inboxAfter_snoc]
    exact leaseInv_next ih hinj input

/-- The step of a message in a run. -/
theorem messageStep_run (collation : Collation) (hinj : Function.Injective uuid)
    (calls : List (Instant × InboxCall))
    (input : Instant × InboxCall) (k : String) :
    MessageStep k
      (DrawnAt uuid (inboxAfter collation uuid calls) (inboxAfter collation uuid (calls ++ [input])))
      input.1 input.2 (handedOut collation uuid calls input)
      (inboxRow k (inboxAfter collation uuid calls).inbox)
      (inboxRow k (inboxAfter collation uuid (calls ++ [input])).inbox) := by
  rw [inboxAfter_snoc]
  exact messageStep collation (leaseInv_run hinj calls) hinj input k

/-- A lease that is handed out is on the row of its message then. -/
theorem handedOut_step (hinj : Function.Injective uuid) {calls : List (Instant × InboxCall)}
    {input : Instant × InboxCall} {lease : InboxLease}
    (h : lease ∈ handedOut collation uuid calls input) :
    ∃ pull before after, input.2 = .pull pull ∧
      inboxRow lease.id (inboxAfter collation uuid calls).inbox = some before ∧
      inboxRow lease.id (inboxAfter collation uuid (calls ++ [input])).inbox = some after ∧
      Takeable input.1 before ∧
      DrawnAt uuid (inboxAfter collation uuid calls) (inboxAfter collation uuid (calls ++ [input]))
        lease.leaseId ∧
      LeasedAs lease.leaseId (input.1 + pull.visibilityTimeoutMs) before after ∧
      lease = leaseOf lease.leaseId after := by
  have hstep := messageStep_run collation hinj calls input lease.id
  generalize hbefore : inboxRow lease.id (inboxAfter collation uuid calls).inbox = before at hstep
  generalize hafter : inboxRow lease.id (inboxAfter collation uuid (calls ++ [input])).inbox =
    after at hstep
  cases hstep with
  | leased made takeable drawn as handed only =>
    have hlease := only lease h rfl
    have hid : lease.leaseId = _ := congrArg InboxLease.leaseId hlease
    rw [hid]
    exact ⟨_, _, _, made, rfl, rfl, takeable, drawn, as, hlease⟩
  | kept silent => exact absurd rfl (silent lease h)
  | staged silent made mem => exact absurd rfl (silent lease h)
  | released silent made takeable leased => exact absurd rfl (silent lease h)
  | acked silent made mem held => exact absurd rfl (silent lease h)
  | retried silent made mem held => exact absurd rfl (silent lease h)

/-! ## Counting the leases -/

/-- The last call adds its own leases. -/
theorem timesLeased_snoc (k : String) (s : InboxState) (calls : List (Instant × InboxCall))
    (input : Instant × InboxCall) :
    timesLeased collation uuid k s (calls ++ [input]) =
      timesLeased collation uuid k s calls +
        if ((inboxMachine collation uuid).reply ((inboxMachine collation uuid).run s calls)
          input).leases.any (·.id = k) then 1 else 0 := by
  induction calls generalizing s with
  | nil => simp [timesLeased]
  | cons first calls ih =>
    simp only [List.cons_append, timesLeased, ih, Machine.run_cons]
    exact (Nat.add_assoc _ _ _).symm

/-- `n` is how often the message was leased since its row was staged. -/
def LeasedSince (collation : Collation) (uuid : Nat → String) (k : String)
    (calls : List (Instant × InboxCall)) (n : Nat) : Prop :=
  ∃ start rest, calls = start ++ rest ∧
    inboxRow k (inboxAfter collation uuid start).inbox = none ∧
    (∀ done, done <+: rest → done ≠ [] →
      inboxRow k (inboxAfter collation uuid (start ++ done)).inbox ≠ none) ∧
    n = timesLeased collation uuid k (inboxAfter collation uuid start) rest

/-- The count of leases goes on while the message is there. -/
theorem LeasedSince.snoc {k : String} {calls : List (Instant × InboxCall)} {n : Nat}
    (h : LeasedSince collation uuid k calls n) {input : Instant × InboxCall}
    (hthere : inboxRow k (inboxAfter collation uuid (calls ++ [input])).inbox ≠ none) :
    LeasedSince collation uuid k (calls ++ [input])
      (n + if (handedOut collation uuid calls input).any (·.id = k) then 1 else 0) := by
  obtain ⟨start, rest, rfl, habsent, hthrough, rfl⟩ := h
  refine ⟨start, rest ++ [input], by rw [List.append_assoc], habsent, fun done hopens hne => ?_, ?_⟩
  · rcases List.prefix_concat_iff.mp hopens with heq | hle
    · rw [heq, ← List.append_assoc]
      exact hthere
    · exact hthrough done hle hne
  · rw [timesLeased_snoc, handedOut, inboxAfter_append]

/-- **The attempts of a row count its leases.** -/
theorem leasedSince_run (hinj : Function.Injective uuid) (k : String)
    (calls : List (Instant × InboxCall)) {row : InboxRow}
    (hrow : inboxRow k (inboxAfter collation uuid calls).inbox = some row) :
    LeasedSince collation uuid k calls row.attempts := by
  induction calls using List.reverseRecOn generalizing row with
  | nil => cases hrow
  | append_singleton calls input ih =>
    have hthere : inboxRow k (inboxAfter collation uuid (calls ++ [input])).inbox ≠ none := by
      rw [hrow]
      exact Option.some_ne_none row
    -- a call that hands out no lease on the message leaves the count as it was
    have hsame : ∀ {row : InboxRow}, inboxRow k (inboxAfter collation uuid calls).inbox = some row →
        (∀ lease ∈ handedOut collation uuid calls input, lease.id ≠ k) →
        LeasedSince collation uuid k (calls ++ [input]) row.attempts := by
      intro row hbefore hsilent
      have hnone : ¬ (handedOut collation uuid calls input).any (·.id = k) = true := by
        simpa using hsilent
      have := (ih hbefore).snoc hthere
      rwa [if_neg hnone] at this
    have hstep := messageStep_run collation hinj calls input k
    rw [hrow] at hstep
    generalize hbefore : inboxRow k (inboxAfter collation uuid calls).inbox = before at hstep
    cases hstep with
    | kept silent => exact hsame hbefore silent
    -- a staged message is new, and counts from here
    | staged silent made mem =>
      refine ⟨calls, [input], rfl, hbefore, fun done hopens hne => ?_, ?_⟩
      · have hopens' : done <+: [] ++ [input] := hopens
        rcases List.prefix_concat_iff.mp hopens' with heq | hnil
        · rw [heq]
          exact hthere
        · exact absurd (List.prefix_nil.mp hnil) hne
      · have hnone : ¬ (handedOut collation uuid calls input).any (·.id = k) = true := by
          simpa using silent
        rw [handedOut] at hnone
        simp only [timesLeased, if_neg hnone]
        rfl
    | released silent made takeable leased =>
      have := hsame hbefore silent
      exact this
    | leased made takeable drawn lease handed only =>
      have hid : row.messageId = k := (inboxRow_eq_some.mp hrow).2
      have hsome : (handedOut collation uuid calls input).any (·.id = k) = true :=
        List.any_eq_true.mpr ⟨_, handed, decide_eq_true hid⟩
      have := (ih hbefore).snoc hthere
      rw [if_pos hsome] at this
      rw [lease.attempts]
      exact this
    | retried silent made mem held =>
      have := hsame hbefore silent
      exact this

/-! ## Leases that are over -/

/-- A lease id that was drawn and that the message does not have: it never gets it again. -/
def Spent (uuid : Nat → String) (k leaseId : String) (s : InboxState) : Prop :=
  (∃ n < s.drawn, uuid n = leaseId) ∧
    ∀ row, inboxRow k s.inbox = some row → row.leaseId ≠ some leaseId

/-- A lease that is spent stays so. -/
theorem Spent.next (hinj : Function.Injective uuid) {k leaseId : String} (hinv : LeaseInv uuid s)
    (h : Spent uuid k leaseId s) (input : Instant × InboxCall) :
    Spent uuid k leaseId ((inboxMachine collation uuid).next s input) := by
  obtain ⟨⟨n, hn, hid⟩, hrow⟩ := h
  have hdrawn : s.drawn ≤ ((inboxMachine collation uuid).next s input).drawn := drawn_le input
  refine ⟨⟨n, by omega, hid⟩, fun row hafter => ?_⟩
  have hstep := messageStep collation hinv hinj input k
  rw [hafter] at hstep
  generalize hbefore : inboxRow k s.inbox = before at hstep
  cases hstep with
  | kept silent => exact hrow row hbefore
  | staged silent made mem => exact (Option.some_ne_none _).symm
  | released silent made takeable leased => exact (Option.some_ne_none _).symm
  | leased made takeable drawn lease handed only =>
    obtain ⟨m, hm, -, hmid⟩ := drawn
    rw [lease.leaseId]
    intro h
    have hsame := hinj (hmid.trans ((Option.some.inj h).trans hid.symm))
    omega
  | retried silent made mem held => exact (Option.some_ne_none _).symm

theorem spent_run (hinj : Function.Injective uuid) {k leaseId : String} (hinv : LeaseInv uuid s)
    (h : Spent uuid k leaseId s) (calls : List (Instant × InboxCall)) :
    Spent uuid k leaseId ((inboxMachine collation uuid).run s calls) := by
  induction calls generalizing s with
  | nil => exact h
  | cons input calls ih => exact ih (leaseInv_next hinv hinj input) (h.next hinj hinv input)

/-- UUIDs that were drawn before a run are drawn after it. -/
theorem drawn_le_run (calls : List (Instant × InboxCall)) :
    s.drawn ≤ ((inboxMachine collation uuid).run s calls).drawn := by
  induction calls generalizing s with
  | nil => exact le_refl _
  | cons input calls ih => exact le_trans (drawn_le input) ih

/-! ## The promises -/

theorem leasedFields_run (hinj : Function.Injective uuid) (calls : List (Instant × InboxCall))
    {row : InboxRow} (hrow : row ∈ (inboxAfter collation uuid calls).inbox) :
    (row.leaseId.isSome ↔ row.status = .leased) ∧
      (row.leaseUntil.isSome ↔ row.status = .leased) := by
  rcases leaseInv_run hinj calls row hrow with ⟨hqueued, hid, huntil⟩ | ⟨hleased, ⟨n, -, hid⟩, huntil⟩
  · simp [hqueued, hid, huntil]
  · simp [hleased, hid, huntil]

/-- A lease that no settlement names is not handed out again before it ends. -/
theorem exclusive_run (hinj : Function.Injective uuid) {pre mid : List (Instant × InboxCall)}
    {now : Instant} {input : PullInput} {last : Instant × InboxCall}
    (hclock : (pre ++ (now, .pull input) :: mid ++ [last]).Pairwise fun a b => a.1 ≤ b.1)
    {lease : InboxLease} (hlease : lease ∈ handedOut collation uuid pre (now, .pull input))
    (hagain : ∃ again ∈ handedOut collation uuid (pre ++ (now, .pull input) :: mid) last,
      again.id = lease.id) :
    now + input.visibilityTimeoutMs ≤ last.1 ∨ ∃ other ∈ mid, other.2.Names lease.leaseId := by
  by_cases hnamed : ∃ other ∈ mid, other.2.Names lease.leaseId
  · exact Or.inr hnamed
  · obtain ⟨pull, before, after, hpull, -, hafter, -, -, has, -⟩ := handedOut_step hinj hlease
    cases hpull
    have hwaits : Waits (now + input.visibilityTimeoutMs) (some lease.leaseId) after :=
      ⟨has.leaseId, Or.inr ⟨has.status, _, has.leaseUntil, le_refl _⟩⟩
    obtain ⟨again, hmem, hid⟩ := hagain
    -- The second pull is not a settlement.
    obtain ⟨pull, _, _, hlast, -⟩ := handedOut_step hinj hmem
    rw [List.append_assoc, List.pairwise_append] at hclock
    rw [handedOut, List.append_cons, inboxAfter_append] at hmem
    refine Or.inl (not_before hinj (leaseInv_run hinj _) hafter hwaits mid last
      (fun leaseId hsome other hother hnames => hnamed ⟨other, hother, ?_⟩)
      (fun leaseId _ hnames => by rw [hlast] at hnames; exact hnames)
      (List.pairwise_cons.mp hclock.2.1).2 ⟨again, hmem, hid⟩)
    rw [Option.some.inj hsome]
    exact hnames

/-- After a retry the message waits for the delay. -/
theorem delayed_run (hinj : Function.Injective uuid) {pre mid : List (Instant × InboxCall)}
    {now : Instant} {settlement : InboxSettlement} {last : Instant × InboxCall}
    (hclock : (pre ++ (now, .settle settlement) :: mid ++ [last]).Pairwise fun a b => a.1 ≤ b.1)
    (hdistinct : ∀ retry ∈ settlement.retries, retry.leaseId ∉ settlement.acks)
    {row : InboxRow} (hrow : row ∈ (inboxAfter collation uuid pre).inbox) {retry : InboxRetry}
    (hfirst : settlement.retries.find? (fun retry => holdsLease retry.leaseId row) = some retry)
    (hagain : ∃ again ∈ handedOut collation uuid (pre ++ (now, .settle settlement) :: mid) last,
      again.id = row.messageId) :
    now + (retry.delaySeconds.getD 0) * 1000 ≤ last.1 := by
  have hheld : holdsLease retry.leaseId row = true := by simpa using List.find?_some hfirst
  have hunacked : ¬ (settlement.acks.any fun leaseId => holdsLease leaseId row) = true := by
    intro h
    obtain ⟨leaseId, hmem, hother⟩ := List.any_eq_true.mp h
    have hsame := (holdsLease_iff.mp hother).1.symm.trans (holdsLease_iff.mp hheld).1
    rw [Option.some.inj hsame] at hmem
    exact hdistinct retry (List.mem_of_find?_eq_some hfirst) hmem
  have hafter : inboxRow row.messageId
      (inboxAfter collation uuid (pre ++ [(now, .settle settlement)])).inbox =
      some (row.release (now + (retry.delaySeconds.getD 0) * 1000) now) := by
    obtain ⟨inbox, hstep, hrows⟩ :=
      settle_next collation uuid (inboxAfter collation uuid pre) now hdistinct
    rw [inboxAfter_snoc, Machine.next, hstep, hrows, inboxRow_eq_some.mpr ⟨hrow, rfl⟩,
      Option.filter_some_pos (by simpa using hunacked), Option.map_some, retryRow_eq, hfirst]
  have hwaits : Waits (now + (retry.delaySeconds.getD 0) * 1000) none
      (row.release (now + (retry.delaySeconds.getD 0) * 1000) now) :=
    ⟨rfl, Or.inl ⟨rfl, le_refl _⟩⟩
  obtain ⟨again, hmem, hid⟩ := hagain
  rw [List.append_assoc, List.pairwise_append] at hclock
  rw [handedOut, List.append_cons, inboxAfter_append] at hmem
  exact not_before hinj (leaseInv_run hinj _) hafter hwaits mid last
    (fun leaseId hsome => absurd hsome.symm (Option.some_ne_none _))
    (fun leaseId hsome => absurd hsome.symm (Option.some_ne_none _)) (List.pairwise_cons.mp hclock.2.1).2 ⟨again, hmem, hid⟩

/-- A lease that was taken over is never the lease of its message again. -/
theorem superseded_run (hinj : Function.Injective uuid) {pre mid post : List (Instant × InboxCall)}
    {first second : Instant × InboxCall} {lease again : InboxLease}
    (hlease : lease ∈ handedOut collation uuid pre first)
    (hagain : again ∈ handedOut collation uuid (pre ++ first :: mid) second)
    (hid : again.id = lease.id) :
    Spent uuid lease.id lease.leaseId
      (inboxAfter collation uuid (pre ++ first :: mid ++ second :: post)) := by
  obtain ⟨_, _, _, -, -, -, -, ⟨n, -, hn, hnid⟩, -, -⟩ := handedOut_step hinj hlease
  obtain ⟨_, _, after, -, -, hafter, -, ⟨m, hm, hm', hmid⟩, has, -⟩ := handedOut_step hinj hagain
  have hle : (inboxAfter collation uuid (pre ++ [first])).drawn ≤
      (inboxAfter collation uuid (pre ++ first :: mid)).drawn := by
    rw [List.append_cons pre first mid, inboxAfter_append (pre ++ [first]) mid]
    exact drawn_le_run mid
  rw [List.append_cons _ second, inboxAfter_append]
  refine spent_run hinj (leaseInv_run hinj _) ⟨⟨n, by omega, hnid⟩, fun row hrow h => ?_⟩ post
  rw [← hid, hafter] at hrow
  rw [← Option.some.inj hrow, has.leaseId] at h
  have hsame := hinj (hmid.trans ((Option.some.inj h).trans hnid.symm))
  omega

/-- **Leases are exclusive, and nothing is handed out early.** -/
theorem leases_sound (collation : Collation) (hinj : Function.Injective uuid) :
    LeasesSound collation uuid where
  leasedFields calls row hrow := leasedFields_run hinj calls hrow
  exclusive pre now input mid last hclock lease hlease hagain :=
    exclusive_run hinj hclock hlease hagain
  delayed pre now settlement mid last hclock hdistinct row hrow retry hfirst hagain :=
    delayed_run hinj hclock hdistinct hrow hfirst hagain
  attempts calls input lease hlease := by
    obtain ⟨pull, before, after, -, hbefore, -, -, -, has, heq⟩ := handedOut_step hinj hlease
    obtain ⟨start, rest, hcalls, habsent, hthrough, hcount⟩ := leasedSince_run hinj _ calls hbefore
    refine ⟨start, rest, hcalls, habsent, hthrough, ?_⟩
    have hattempts : lease.attempts = after.attempts := congrArg InboxLease.attempts heq
    rw [hattempts, has.attempts, hcount]
  superseded pre first mid second post lease hlease hagain row hrow hid := by
    obtain ⟨again, hmem, hsame⟩ := hagain
    exact (superseded_run hinj hlease hmem hsame).2 row (inboxRow_eq_some.mpr ⟨hrow, hid⟩)
  settleOthers calls now settlement row hrow hnames := by
    have hstep := messageStep_run collation hinj calls (now, .settle settlement)
      row.messageId
    rw [inboxRow_eq_some.mpr ⟨hrow, rfl⟩] at hstep
    generalize hafter : inboxRow row.messageId
      (inboxAfter collation uuid (calls ++ [(now, .settle settlement)])).inbox = after at hstep
    -- a settlement steps only on messages it names
    cases hstep with
    | kept silent => exact (inboxRow_eq_some.mp hafter).1
    | released silent made takeable leased => cases made
    | leased made takeable drawn lease handed only => cases made
    | acked silent made mem held =>
      cases made
      exact absurd (Or.inl mem) (hnames _ (holdsLease_iff.mp held).1)
    | retried silent made mem held =>
      cases made
      exact absurd (Or.inr ⟨_, mem, rfl⟩) (hnames _ (holdsLease_iff.mp held).1)
  disappears calls input row hrow hgone := by
    have hstep := messageStep_run collation hinj calls input row.messageId
    rw [inboxRow_eq_some.mpr ⟨hrow, rfl⟩, hgone] at hstep
    cases hstep with
    | acked silent made mem held => exact ⟨_, made, _, mem, holdsLease_iff.mp held⟩
  restaged calls now messages row hrow := by
    have hstep := messageStep_run collation hinj calls (now, .stage messages)
      row.messageId
    rw [inboxRow_eq_some.mpr ⟨hrow, rfl⟩] at hstep
    generalize hafter : inboxRow row.messageId
      (inboxAfter collation uuid (calls ++ [(now, .stage messages)])).inbox = after at hstep
    cases hstep with
    | kept silent => exact (inboxRow_eq_some.mp hafter).1
    | released silent made takeable leased => cases made
    | leased made takeable drawn lease handed only => cases made
    | acked silent made mem held => cases made
    | retried silent made mem held => cases made
  refused calls now settlement hboth := by
    obtain ⟨retry, hmem, hack⟩ := hboth
    rw [inboxAfter_snoc, Machine.next, settle_next_refused hmem hack]
  first calls now input := by
    obtain ⟨final, hstep, -⟩ := pull_run collation (leaseInv_run hinj calls) hinj now input
    refine ⟨_, List.perm_insertionSort (inOrder collation) _,
      List.pairwise_insertionSort (inOrder collation) _, ?_⟩
    rw [handedOut, Machine.reply, hstep]
    show List.map _ (List.map _ _) = List.map _ (candidates collation now input.batchSize _)
    rw [← chosen_fst fun i => uuid ((inboxAfter collation uuid calls).drawn + i), List.map_map,
      List.map_map]
    rfl

/-! ## Sample runs -/

/-- Texts in the order of their code points. -/
def codePoints : Collation where
  le a b := decide (a.toList ≤ b.toList)
  total a b := by simpa using le_total a.toList b.toList
  trans a b c := by simpa using fun hab hbc => le_trans hab hbc
  antisymm a b := by
    simp only [decide_eq_true_eq]
    exact fun hab hba => String.toList_inj.mp (le_antisymm hab hba)

namespace Sample

def leaseIds (n : Nat) : String := "3f2c9a1e-5b7d-4e60-8a91-0000000000" ++ toString n

theorem leaseIds_injective : Function.Injective leaseIds := by
  intro m n h
  exact toString_nat_inj ((String.append_right_inj _).mp h)

def message : InboxMessage := ⟨"m", .str "body", 0⟩

def pullOne : InboxCall := .pull ⟨1, 30000⟩

end Sample

theorem leases_sound_codePoints : LeasesSound codePoints Sample.leaseIds :=
  leases_sound codePoints Sample.leaseIds_injective

/--
The attempts start again when an id is staged after its acknowledgement, and of two retries of one
lease the first decides: the delay of the second is lost.
-/
theorem attempts_restart_and_delay_lost :
    (¬ ∀ calls input, ∀ lease ∈ handedOut codePoints Sample.leaseIds calls input,
      lease.attempts = timesLeased codePoints Sample.leaseIds lease.id ⟨∅, 0⟩ calls + 1) ∧
    (¬ ∀ pre now settlement last, ∀ retry ∈ settlement.retries,
      (∀ retry ∈ settlement.retries, retry.leaseId ∉ settlement.acks) →
      ∀ row ∈ (inboxAfter codePoints Sample.leaseIds pre).inbox,
      holdsLease retry.leaseId row = true →
      (∃ again ∈ handedOut codePoints Sample.leaseIds (pre ++ [(now, .settle settlement)]) last,
        again.id = row.messageId) →
      now + (retry.delaySeconds.getD 0) * 1000 ≤ last.1) := by
  constructor
  · intro h
    have := h [(0, .stage [Sample.message]), (1, Sample.pullOne),
      (2, .settle ⟨[Sample.leaseIds 0], []⟩), (3, .stage [Sample.message])] (4, Sample.pullOne)
    exact absurd this (by decide +kernel)
  · intro h
    have := h [(0, .stage [Sample.message]), (1, Sample.pullOne)] 2
      ⟨[], [⟨none, Sample.leaseIds 0⟩, ⟨some 100, Sample.leaseIds 0⟩]⟩ (2, Sample.pullOne)
      ⟨some 100, Sample.leaseIds 0⟩ (by simp)
    exact absurd this (by decide +kernel)

end InboxServer
