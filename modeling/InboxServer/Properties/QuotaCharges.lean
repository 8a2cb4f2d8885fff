import InboxServer.Infra.Expand
import InboxServer.Properties.ArticleDeferrals
import InboxServer.Properties.DeliverOnce
import InboxServer.Properties.HandlerCalls

/-!
# What a run of the handler is charged for

The limits of an article are consumed before its effects are looked at, those of any other item one
after the other once an effect is claimed.

* `meets_handle` — what the calls of the handler do to the counters, up to the first delivery
* `quota_charged_only` — a run that starts no delivery is charged for an article whose limits were
  granted, and for the day of a text whose window was not
-/

namespace InboxServer

open Infra

/-! ## Counters -/

/-- The counters of the single limits, and those of the batches. -/
abbrev Counters := Table RateLimitRow × Table RateLimitBatchRow

def Db.counters (db : Db) : Counters := (db.rateLimits, db.rateLimitBatches)

/-- Each of the limits is granted, one after the other, and charged. -/
inductive Charged : List RateLimitInput → Counters → Counters → Prop
  | nil (counters : Counters) : Charged [] counters counters
  | cons {now : Instant} {input : RateLimitInput} {inputs : List RateLimitInput} {count : Nat}
      {limits : Table RateLimitRow} {before after : Counters}
      (granted : Postgres.consumeRateLimit now input before.1 = .ok (.allowed count, limits))
      (rest : Charged inputs (limits, before.2) after) : Charged (input :: inputs) before after

/-- The limits are granted together, and charged at once. -/
def ChargedTogether (inputs : List RateLimitInput) (before after : Counters) : Prop :=
  ∃ now counts batches, Postgres.consumeRateLimits now inputs before.2 =
    .ok (.allowed counts, batches) ∧ after = (before.1, batches)

/-- A transaction that is asked for at the moment. -/
def Moment.send {ρ : Type} (moment : Moment) (db : Db) :
    Except ErrorText (ρ × Db) → Db × Except Thrown ρ
  | .error text => (db, clientAnswer moment.transit (.error text))
  | .ok (reply, db') =>
    (if moment.arrives then db' else db, clientAnswer moment.transit (.ok reply))

/-- Unless its answer is lost, it is answered, or it has done nothing. -/
theorem Moment.send_cases {ρ : Type} (moment : Moment) (db : Db)
    (result : Except ErrorText (ρ × Db)) : moment.transit = .answerLost ∨
      (∃ reply db', result = .ok (reply, db') ∧ moment.send db result = (db', .ok reply)) ∨
      ∃ e, moment.send db result = (db, .error e) := by
  rcases result with text | ⟨reply, db'⟩
  · refine Or.inr (Or.inr ?_)
    cases htransit : moment.transit <;> exact ⟨_, by rw [send, htransit]; rfl⟩
  · cases htransit : moment.transit with
    | answerLost => exact Or.inl rfl
    | requestLost =>
      exact Or.inr (Or.inr ⟨.error true "fetch failed", by
        simp [send, arrives, clientAnswer, htransit]⟩)
    | answered =>
      exact Or.inr (Or.inl ⟨reply, db', rfl, by simp [send, arrives, clientAnswer, htransit]⟩)

/-- The effects and the limits are on PostgreSQL; everything else answers as it likes. -/
def serveQuota (moment : Moment) (db : Db) : (c : HandlerCall) → Db × c.Answer
  | .consumeRateLimit input =>
    moment.send db ((Postgres.consumeRateLimit moment.now input db.rateLimits).map
      fun (reply, rateLimits) => (reply, { db with rateLimits }))
  | .consumeRateLimits inputs =>
    moment.send db ((Postgres.consumeRateLimits moment.now inputs db.rateLimitBatches).map
      fun (reply, rateLimitBatches) => (reply, { db with rateLimitBatches }))
  | c => serveHandler moment db c

/-! ## Runs -/

def HandlerCall.isStart : HandlerCall → Bool
  | .startDelivery _ => true
  | _ => false

/-- A run so far: the tables, whether it has started a delivery, and whether it has missed the
answer to a limit. -/
structure QuotaNote where
  db : Db
  started : Bool
  lost : Bool

/-- A note before any call. -/
def QuotaNote.on (db : Db) : QuotaNote := ⟨db, false, false⟩

def QuotaNote.counters (note : QuotaNote) : Counters := note.db.counters

/-- The note and the answer after a call. -/
def QuotaNote.serve (moment : Moment) (note : QuotaNote) (c : HandlerCall) :
    QuotaNote × c.Answer :=
  ({ db := (serveQuota moment note.db c).1
     started := note.started || c.isStart
     lost := note.lost || (c.isLimit && moment.transit = .answerLost) },
    (serveQuota moment note.db c).2)

/-- Every call is answered at some moment. -/
def quotaContract : Contract HandlerCall HandlerCall.Answer QuotaNote where
  asks _ _ := True
  learns note c r note' := ∃ moment, note.serve moment c = (note', r)

/-- A delivery is started, or it is unknown what is charged. -/
def QuotaNote.Over (note : QuotaNote) : Prop := note.started = true ∨ note.lost = true

variable {α : Type} {note note' : QuotaNote} {before : Counters}

theorem over_learns {c : HandlerCall} {r : c.Answer} (h : note.Over)
    (hlearns : quotaContract.learns note c r note') : note'.Over := by
  obtain ⟨moment, hserve⟩ := hlearns
  obtain ⟨rfl, -⟩ := Prod.mk.inj hserve
  rcases h with hstarted | hlost
  · exact Or.inl (by simp [hstarted])
  · exact Or.inr (by simp [hlost])

/-- Once a run is over, it stays so. -/
theorem meets_over (p : HandlerProg α) (h : note.Over) :
    p.Meets quotaContract (fun note _ => note.Over) note :=
  p.makes_true.meets (fun _ _ _ _ => trivial) (fun _ _ _ _ hover _ => over_learns hover) h

/-- A call that asks for no limit leaves the counters as they are. -/
theorem counters_learns {c : HandlerCall} {r : c.Answer} (hlimit : c.isLimit = false)
    (hlearns : quotaContract.learns note c r note') : note'.counters = note.counters := by
  obtain ⟨moment, hserve⟩ := hlearns
  obtain ⟨rfl, -⟩ := Prod.mk.inj hserve
  cases c with
  | consumeRateLimit _ | consumeRateLimits _ => cases hlimit
  | claimEffect input =>
    show Db.counters (if moment.arrives then _ else _) = _
    split
    · unfold Backend.claimEffect transactEffects
      cases Postgres.claimEffect moment.now input note.db.effects <;> rfl
    · rfl
  | finishEffect effectKey result =>
    show Db.counters (if moment.arrives then _ else _) = _
    split <;> rfl
  | _ => rfl

/-- A part of the handler that is aside from the limits leaves the counters as they are. -/
theorem Aside.quota {p : HandlerProg α} (h : Aside p) (hnote : note.counters = before) :
    p.Meets quotaContract (fun note _ => note.counters = before) note :=
  Prog.Makes.meets h (fun _ _ _ _ => trivial)
    (fun _ _ _ _ hsame haside hlearns => (counters_learns haside.1 hlearns).trans hsame) hnote

/-! ### Limits -/

/-- A refused call charges nothing. -/
theorem consumeRateLimit_refused {now retryAt : Instant} {input : RateLimitInput} {count : Nat}
    {limits limits' : Table RateLimitRow}
    (h : Postgres.consumeRateLimit now input limits = .ok (.refused count retryAt, limits')) :
    limits' = limits := by
  unfold Postgres.consumeRateLimit at h
  dsimp only at h
  split at h
  · cases h
  · split at h
    · cases h
    · split at h
      · cases h
      · split at h
        · cases h
          rfl
        · cases h

/-- A limit is granted and charged, or nothing is, unless its answer is lost. -/
theorem learns_consumeRateLimit {input : RateLimitInput}
    {reply : Except Thrown Postgres.RateLimitReply}
    (hlearns : quotaContract.learns note (.consumeRateLimit input) reply note') :
    note'.Over ∨ (∃ count, reply = .ok (.allowed count) ∧
        Charged [input] note.counters note'.counters) ∨
      (∀ count, reply ≠ .ok (.allowed count)) ∧ note'.counters = note.counters := by
  obtain ⟨moment, hserve⟩ := hlearns
  rcases moment.send_cases note.db ((Postgres.consumeRateLimit moment.now input
    note.db.rateLimits).map fun (reply, rateLimits) => (reply, { note.db with rateLimits })) with
    hlost | ⟨served, db', hserved, hsend⟩ | ⟨e, hsend⟩
  · obtain ⟨rfl, -⟩ := Prod.mk.inj hserve
    exact Or.inl (Or.inr (by simp [HandlerCall.isLimit, hlost]))
  · rw [QuotaNote.serve, serveQuota, hsend] at hserve
    obtain ⟨rfl, rfl⟩ := Prod.mk.inj hserve
    cases hlimit : Postgres.consumeRateLimit moment.now input note.db.rateLimits with
    | error text =>
      rw [hlimit] at hserved
      cases hserved
    | ok result =>
      rw [hlimit] at hserved
      cases hserved
      obtain ⟨reply, rateLimits⟩ := result
      cases reply with
      | allowed count => exact Or.inr (Or.inl ⟨count, rfl, .cons hlimit (.nil _)⟩)
      | refused count retryAt =>
        refine Or.inr (Or.inr ⟨(fun _ h => by cases h), ?_⟩)
        rw [consumeRateLimit_refused hlimit]
        rfl
  · rw [QuotaNote.serve, serveQuota, hsend] at hserve
    obtain ⟨rfl, rfl⟩ := Prod.mk.inj hserve
    exact Or.inr (Or.inr ⟨(fun _ h => by cases h), rfl⟩)

/-- A batch is charged as a whole, or not at all. -/
theorem learns_consumeRateLimits {inputs : List RateLimitInput}
    {reply : Except Thrown Postgres.RateLimitBatchReply}
    (hlearns : quotaContract.learns note (.consumeRateLimits inputs) reply note') :
    note'.Over ∨ (∃ counts, reply = .ok (.allowed counts) ∧
        ChargedTogether inputs note.counters note'.counters) ∨
      (∀ counts, reply ≠ .ok (.allowed counts)) ∧ note'.counters = note.counters := by
  obtain ⟨moment, hserve⟩ := hlearns
  rcases moment.send_cases note.db ((Postgres.consumeRateLimits moment.now inputs
    note.db.rateLimitBatches).map fun (reply, rateLimitBatches) =>
      (reply, { note.db with rateLimitBatches })) with
    hlost | ⟨served, db', hserved, hsend⟩ | ⟨e, hsend⟩
  · obtain ⟨rfl, -⟩ := Prod.mk.inj hserve
    exact Or.inl (Or.inr (by simp [HandlerCall.isLimit, hlost]))
  · rw [QuotaNote.serve, serveQuota, hsend] at hserve
    obtain ⟨rfl, rfl⟩ := Prod.mk.inj hserve
    cases hlimit : Postgres.consumeRateLimits moment.now inputs note.db.rateLimitBatches with
    | error text =>
      rw [hlimit] at hserved
      cases hserved
    | ok result =>
      rw [hlimit] at hserved
      cases hserved
      obtain ⟨reply, batches⟩ := result
      cases reply with
      | allowed counts =>
        exact Or.inr (Or.inl ⟨counts, rfl, moment.now, counts, batches, hlimit, rfl⟩)
      | refused counts retryAt =>
        refine Or.inr (Or.inr ⟨(fun _ h => by cases h), ?_⟩)
        rw [(consumeRateLimits_refused.mp hlimit).1]
        rfl
  · rw [QuotaNote.serve, serveQuota, hsend] at hserve
    obtain ⟨rfl, rfl⟩ := Prod.mk.inj hserve
    exact Or.inr (Or.inr ⟨(fun _ h => by cases h), rfl⟩)

theorem Charged.append {first second : List RateLimitInput} {mid after : Counters}
    (h : Charged first before mid) (h' : Charged second mid after) :
    Charged (first ++ second) before after := by
  induction h with
  | nil counters => exact h'
  | cons granted _ ih => exact .cons granted (ih h')

theorem charged_nil {after : Counters} (h : Charged [] before after) : after = before := by
  cases h
  rfl

/-- The limits of an item are charged up to the first that is not granted. -/
theorem meets_enforceRateLimit (granted inputs : List RateLimitInput)
    (h : Charged granted before note.counters) :
    (enforceRateLimit inputs).Meets quotaContract (fun note result => note.Over ∨
        ∀ e, result = .error e → ∃ some rest, granted ++ inputs = some ++ rest ∧ rest ≠ [] ∧
          Charged some before note.counters)
      note := by
  induction inputs generalizing granted note with
  | nil => exact Or.inr fun e he => by cases he
  | cons input inputs ih =>
    refine ⟨trivial, fun reply note' hlearns => ?_⟩
    rcases learns_consumeRateLimit hlearns with hover | ⟨count, rfl, hcharged⟩ | ⟨hnot, hsame⟩
    · exact (meets_over _ hover).mono fun _ _ hover => Or.inl hover
    · refine (ih (granted ++ [input]) (h.append hcharged)).mono fun _ _ hend => ?_
      simpa using hend
    · have hstop : ∃ some rest, granted ++ input :: inputs = some ++ rest ∧ rest ≠ [] ∧
          Charged some before note'.counters :=
        ⟨granted, input :: inputs, rfl, List.cons_ne_nil _ _, hsame ▸ h⟩
      rcases reply with e | ⟨count⟩ | ⟨count, retryAt⟩
      · exact Or.inr fun _ _ => hstop
      · exact absurd rfl (hnot count)
      · exact Or.inr fun _ _ => hstop

/-! ### The handler -/

section Item

variable (options : HandlerOptions) (item : DispatchItem)

/-- The day of a text is charged, and its window is not granted. -/
def DayCharged (before after : Counters) : Prop :=
  item.itemKind = .text ∧ ∃ current day window,
    rateLimitInputs options.channels.articleArchive item current = [day, window] ∧
    Charged [day] before after

/-- The limits of an article that is due somewhere are granted. -/
def ArticleCharged (before after : Counters) : Prop :=
  item.itemKind = .article ∧ matchingDestinations options.channels item ≠ [] ∧
    ∃ current, ChargedTogether (rateLimitInputs options.channels.articleArchive item current)
      before after

variable {options item}

/-- A text has a limit for the day and one for the window, a link and a file have one limit. -/
theorem charged_of_begins {current : Instant} {some rest : List RateLimitInput}
    {after : Counters} (hkind : item.itemKind ≠ .article)
    (hinputs : rateLimitInputs options.channels.articleArchive item current = some ++ rest)
    (hrest : rest ≠ []) (h : Charged some before after) :
    after = before ∨ DayCharged options item before after := by
  rcases some with _ | ⟨day, some⟩
  · exact Or.inl (charged_nil h)
  · obtain ⟨window, rest, rfl⟩ := List.exists_cons_of_ne_nil hrest
    have hlength := congrArg List.length hinputs
    cases hitem : item.itemKind with
    | article => exact absurd hitem hkind
    | link | file =>
      simp [rateLimitInputs, ratePolicy, RatePolicy.inputs, hitem] at hlength
    | text =>
      have hshort : some.length + rest.length = 0 := by
        simp [rateLimitInputs, ratePolicy, RatePolicy.inputs, hitem] at hlength
        omega
      obtain rfl : some = [] := List.eq_nil_of_length_eq_zero (by omega)
      obtain rfl : rest = [] := List.eq_nil_of_length_eq_zero (by omega)
      exact Or.inr ⟨hitem, current, day, window, hinputs, h⟩

/-- A limit stops the item with an error, and then only the day of a text may be charged. -/
theorem meets_limitItem (h : note.counters = before) :
    (limitItem options item).Meets quotaContract (fun note result => note.Over ∨
      match result with
      | .ok _ => item.itemKind = .article → note.counters = before
      | .error _ => note.counters = before ∨ DayCharged options item before note.counters) note := by
  unfold limitItem
  split
  · exact Or.inr fun _ => h
  · next hkind =>
    refine ⟨trivial, fun current note' hlearns => ?_⟩
    have hsame : note'.counters = before := (counters_learns rfl hlearns).trans h
    have hnone : Charged [] before note'.counters := hsame ▸ Charged.nil note'.counters
    refine (meets_enforceRateLimit [] _ hnone).mono fun g result hend => ?_
    rcases hend with hover | hend
    · exact Or.inl hover
    · cases result with
      | ok _ => exact Or.inr fun harticle => absurd harticle hkind
      | error e =>
        obtain ⟨some, rest, hinputs, hrest, hcharged⟩ := hend e rfl
        exact Or.inr (charged_of_begins hkind hinputs hrest hcharged)

theorem meets_deliver (delivery : Delivery) :
    (deliver delivery).Meets quotaContract (fun note _ => note.Over) note := by
  refine ⟨trivial, fun u note' hlearns => meets_over _ ?_⟩
  obtain ⟨moment, hserve⟩ := hlearns
  obtain ⟨rfl, -⟩ := Prod.mk.inj hserve
  exact Or.inl (Bool.or_true _)

/-- The counters after a part of the loop that has started no delivery: the limits do not defer
what has come as far as the loop. -/
def LoopCharged {α : Type} (options : HandlerOptions) (item : DispatchItem) (before : Counters)
    (limited : Instant → α) (note : QuotaNote) (result : Except Thrown α) : Prop :=
  note.Over ∨ (∀ retryAt, result ≠ .ok (limited retryAt)) ∧
    (note.counters = before ∨
      DayCharged options item before note.counters ∧ ∃ e, result = .error e)

/-- A destination charges what its limits say. -/
theorem meets_deliverTo (job : QueueJob) (destination : String) (h : note.counters = before) :
    (deliverTo options job item destination).Meets quotaContract
      (LoopCharged options item before fun retryAt => some (.deferred .rateLimit retryAt)) note := by
  refine ⟨trivial, fun reply note' hlearns => ?_⟩
  have hsame : note'.counters = before := (counters_learns rfl hlearns).trans h
  rcases reply with e | ⟨attempts⟩ | ⟨retryAt⟩ | ⟨⟩ | ⟨⟩
  · exact Or.inr ⟨(fun _ h => by cases h), Or.inl hsame⟩
  · refine (meets_limitItem hsame).andThen (fun g u _ => ?_) fun g e hend => ?_
    · exact (meets_deliver _).mono fun _ _ hover => Or.inl hover
    · rcases hend with hover | hend
      · exact Or.inl hover
      · exact Or.inr ⟨(fun _ h => by cases h), hend.imp_right fun hday => ⟨hday, e, rfl⟩⟩
  all_goals exact Or.inr ⟨(fun _ h => by cases h), Or.inl hsame⟩

theorem meets_deliverAll (job : QueueJob) (destinations : List String) (states : Fields)
    (h : note.counters = before) :
    (deliverAll options job item destinations states).Meets quotaContract
      (LoopCharged options item before fun retryAt => .inl (.deferred .rateLimit retryAt)) note := by
  induction destinations generalizing note states with
  | nil => exact Or.inr ⟨(fun _ h => by cases h), Or.inl h⟩
  | cons destination destinations ih =>
    refine (meets_deliverTo job destination h).andThen (fun g result hend => ?_) fun g e hend => ?_
    · rcases hend with hover | ⟨hnot, hsame | ⟨-, e, herror⟩⟩
      · exact (meets_over _ hover).mono fun _ _ hover => Or.inl hover
      · cases result with
        | none => exact ih _ hsame
        | some result =>
          refine Or.inr ⟨fun retryAt hlimited => hnot retryAt ?_, Or.inl hsame⟩
          cases hlimited
          rfl
      · cases herror
    · rcases hend with hover | ⟨-, hend⟩
      · exact Or.inl hover
      · exact Or.inr ⟨(fun _ h => by cases h), hend.imp_right fun hday => ⟨hday.1, e, rfl⟩⟩

/-- The limits of an article are charged together, and only if it is not deferred. -/
theorem meets_limitArticle (h : note.counters = before) :
    (limitArticle options item (matchingDestinations options.channels item)).Meets quotaContract
      (fun note result => note.Over ∨ note.counters = before ∨
        (ArticleCharged options item before note.counters ∧ result = .ok none)) note := by
  unfold limitArticle
  split
  · next hdue =>
    simp only [Bool.and_eq_true, decide_eq_true_eq, Bool.not_eq_true',
      List.isEmpty_eq_false_iff] at hdue
    refine ⟨trivial, fun current note' hlearns => ⟨trivial, fun reply note'' hlearns' => ?_⟩⟩
    have hsame : note'.counters = before := (counters_learns rfl hlearns).trans h
    rcases learns_consumeRateLimits hlearns' with hover | ⟨counts, rfl, hcharged⟩ | ⟨-, hsame'⟩
    · cases reply with
      | error e => exact Or.inl hover
      | ok reply => cases reply <;> exact Or.inl hover
    · exact Or.inr (Or.inr ⟨⟨hdue.1, hdue.2, current, hsame ▸ hcharged⟩, rfl⟩)
    · have hkept : note''.counters = before := hsame'.trans hsame
      cases reply with
      | error e => exact Or.inr (Or.inl hkept)
      | ok reply => cases reply <;> exact Or.inr (Or.inl hkept)
  · exact Or.inr (Or.inl h)

/-- What an item is charged where no delivery of it is started. -/
def ItemCharged (options : HandlerOptions) (item : DispatchItem) (before after : Counters)
    (result : Except Thrown JobHandlerResult) : Prop :=
  after = before ∨
    (ArticleCharged options item before after ∧
      ∀ retryAt, result ≠ .ok (.deferred .rateLimit retryAt)) ∨
    (DayCharged options item before after ∧ ∃ e, result = .error e)

/-- What the loop is charged comes on top of what the item was charged before it. -/
theorem ItemCharged.of_loop {mid after : Counters} {result : Except Thrown JobHandlerResult}
    (hmid : mid = before ∨ ArticleCharged options item before mid)
    (hnot : ∀ retryAt, result ≠ .ok (.deferred .rateLimit retryAt))
    (hend : after = mid ∨ DayCharged options item mid after ∧ ∃ e, result = .error e) :
    ItemCharged options item before after result := by
  rcases hmid with rfl | harticle
  · exact hend.imp_right Or.inr
  · rcases hend with rfl | ⟨⟨htext, -⟩, -⟩
    · exact Or.inr (Or.inl ⟨harticle, hnot⟩)
    · rw [harticle.1] at htext
      cases htext

/-- After the deliveries nothing is charged. -/
theorem meets_afterDeliveries (env : Env) {end_ : JobHandlerResult ⊕ Fields}
    (hnot : ∀ retryAt, end_ ≠ .inl (.deferred .rateLimit retryAt)) (h : note.counters = before) :
    (afterDeliveries env options item end_).Meets quotaContract (fun note result =>
      note.counters = before ∧ ∀ retryAt, result ≠ .ok (.deferred .rateLimit retryAt)) note := by
  cases end_ with
  | inl result =>
    refine ⟨h, fun retryAt hlimited => hnot retryAt ?_⟩
    cases hlimited
    rfl
  | inr states =>
    refine ((aside_followUp env options item).quota h).andThen (fun g _ hsame => ?_)
      fun g e hsame => ?_
    · exact ⟨hsame, fun _ h => by cases h⟩
    · exact ⟨hsame, fun _ h => by cases h⟩

/-- A dispatch charges what its destinations do. -/
theorem meets_dispatchItem (env : Env) (job : QueueJob) (h : note.counters = before) :
    (dispatchItem env options job item).Meets quotaContract (fun note result =>
      note.Over ∨ ItemCharged options item before note.counters result) note := by
  refine (meets_limitArticle h).andThen (fun g limited hlimit => ?_) fun g e hlimit => ?_
  · rcases hlimit with hover | hlimit
    · exact (meets_over _ hover).mono fun _ _ hover => Or.inl hover
    · cases limited with
      | some retryAt =>
        rcases hlimit with hsame | ⟨-, hnone⟩
        · exact Or.inr (Or.inl hsame)
        · cases hnone
      | none =>
        have hmid := hlimit.imp_right And.left
        refine (meets_deliverAll job _ [] rfl).andThen (fun g' end_ hend => ?_) fun g' e hend => ?_
        · rcases hend with hover | ⟨hnot, hsame | ⟨-, e, herror⟩⟩
          · exact (meets_over _ hover).mono fun _ _ hover => Or.inl hover
          · have hend : ∀ retryAt, end_ ≠ .inl (.deferred .rateLimit retryAt) :=
              fun retryAt heq => hnot retryAt (congrArg _ heq)
            refine (meets_afterDeliveries env hend hsame).mono fun g'' result hafter => ?_
            exact Or.inr (.of_loop hmid hafter.2 (Or.inl hafter.1))
          · cases herror
        · rcases hend with hover | ⟨-, hend⟩
          · exact Or.inl hover
          · exact Or.inr (.of_loop hmid (fun _ h => by cases h)
              (hend.imp_right fun hday => ⟨hday.1, e, rfl⟩))
  · rcases hlimit with hover | hsame | ⟨-, hnone⟩
    · exact Or.inl hover
    · exact Or.inr (Or.inl hsame)
    · cases hnone

end Item

/-- What a job is charged where no delivery of it is started. -/
def JobCharged (env : Env) (options : HandlerOptions) (input : Json) (before after : Counters)
    (result : Except Thrown JobHandlerResult) : Prop :=
  after = before ∨ ∃ job item, parseQueueJob env.zod input = some job ∧
    job.payload = .dispatchItem item ∧ ItemCharged options item before after result

/-- A job charges what its dispatch does, and others charge nothing. -/
theorem meets_handle (env : Env) (options : HandlerOptions) (input : Json)
    (h : note.counters = before) :
    (handle env options input).Meets quotaContract (fun note result =>
      note.Over ∨ JobCharged env options input before note.counters result) note := by
  unfold handle
  split
  · exact Or.inr (Or.inl h)
  · next job hparse =>
    split
    · exact ((aside_collectSource env options job _ _).quota h).mono
        fun _ _ hsame => Or.inr (Or.inl hsame)
    · next item hitem =>
      refine (meets_dispatchItem env job h).mono fun _ _ hend => ?_
      exact hend.imp_right fun hcharged => Or.inr ⟨job, item, hparse, hitem, hcharged⟩

/--
**A run that starts no delivery leaves the counters as they were**, except that an article whose
limits were granted is charged for them once, and a text whose window was not granted for its day.
-/
theorem quota_charged_only {env : Env} {options : HandlerOptions} {input : Json} {db : Db}
    {result : Except Thrown JobHandlerResult}
    (hrun : Prog.Ends quotaContract.learns (.on db) (handle env options input) note result)
    (hstarted : note.started = false) :
    note.lost = true ∨ JobCharged env options input db.counters note.counters result := by
  have hbefore : (QuotaNote.on db).counters = db.counters := rfl
  have hend := (meets_handle env options input hbefore).ends hrun
  rcases hend with (hstart | hlost) | hcharged
  · rw [hstarted] at hstart
    cases hstart
  · exact Or.inl hlost
  · exact Or.inr hcharged

/-! ### A delivered article -/

namespace DeliveredArticle

open LinkToNowhere (options)

def input : Json := (Sample.articleJob Sample.firstId).toJson

/-- The effect of the article at the archive is done. -/
def db : Db :=
  let effectKey := effectKeyOf (Sample.articleJob Sample.firstId) "article_archive"
  let claimed := (Backend.postgres.claimEffect 0
    { destination := "article_archive", effectKey, jobId := Sample.firstId } ∅).1
  (Backend.postgres.finishEffect 0 effectKey ⟨.done, none, none⟩ claimed).1

/-- Every call is answered at one moment. -/
def moment : Moment := Overtaken.granting TextToFlomo.current

def run : QuotaNote × Except Thrown JobHandlerResult :=
  (handle Sample.env options input).exec (QuotaNote.serve moment) (.on db)

theorem run_ends : Prog.Ends quotaContract.learns (.on db) (handle Sample.env options input) run.1
    run.2 := by
  have hserve : ∀ note c, quotaContract.learns note c (QuotaNote.serve moment note c).2
      (QuotaNote.serve moment note c).1 := fun note c => ⟨moment, rfl⟩
  exact Prog.ends_exec hserve _ _

theorem quota_charged_only_done :
    run.1.lost = true ∨ JobCharged Sample.env options input db.counters run.1.counters run.2 :=
  quota_charged_only run_ends (by decide +kernel)

/-- Nothing is left to deliver, and the limits are charged. -/
theorem charged_for_nothing :
    ¬ ∀ env options input db note result,
      Prog.Ends quotaContract.learns (.on db) (handle env options input) note result →
      note.started = false → note.lost = false → note.counters = db.counters := by
  intro h
  have hsame := h Sample.env options input db run.1 run.2 run_ends (by decide +kernel)
    (by decide +kernel)
  exact absurd hsame (by decide +kernel)

end DeliveredArticle

end InboxServer
