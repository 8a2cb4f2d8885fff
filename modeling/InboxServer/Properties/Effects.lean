import InboxServer.Api.Backend

/-!
# The life of an effect

What one claim and one finish do to the row of an effect, on both backends, and what follows for
runs of them.

* `claimEffect_backend`, `finishEffect_backend` — called one at a time, the backends agree
* `lookup_claimEffect`, `lookup_finishEffect` — the row of every effect after a call
* `retriesExactly_iff` — a busy effect can be claimed from its retry instant on, but for that instant
* `effects_terminal_iff` — a terminal effect stays terminal in exactly the runs that finish it, once
  it is terminal, with the same outcome only
-/

namespace InboxServer

open Infra

/-! ## The backends agree -/

theorem effectKey_of_conflict {a b : EffectRow} (h : Constrained.conflict a b = true) :
    a.effectKey = b.effectKey := of_decide_eq_true h

namespace Postgres

theorem claimEffect_new (now : Instant) {input : ClaimEffectInput} {effects : Table EffectRow}
    (h : effects.lookup EffectRow.effectKey input.effectKey = none) :
    ∃ effects', effects.insert? (EffectRow.claimed input now) = some effects' ∧
      claimEffect now input effects = .ok (.claimed 1, effects') := by
  obtain ⟨effects', hins⟩ := Table.insert?_of_lookup_eq_none
    (r := EffectRow.claimed input now) (fun _ hc => effectKey_of_conflict hc) h
  exact ⟨effects', hins, by simp only [claimEffect, hins]⟩

/-- A later claim is refused, or takes it again. -/
theorem claimEffect_existing (now : Instant) {input : ClaimEffectInput}
    {effects : Table EffectRow} {existing : EffectRow}
    (h : effects.lookup EffectRow.effectKey input.effectKey = some existing) :
    claimEffect now input effects =
      match refuseEffect now existing with
      | some reply => .ok (reply, effects)
      | none =>
        .ok (.claimed (existing.attempts + 1),
          effects.update (fun row => row.effectKey = input.effectKey)
            (EffectRow.reclaim (existing.attempts + 1) now)) := by
  have hins : effects.insert? (EffectRow.claimed input now) = none :=
    Table.insert?_of_lookup_eq_some EffectRow.isKey_effectKey h
  have hupdate : effects.update (fun row => row.effectKey = input.effectKey)
      (EffectRow.reclaimNext now) =
      effects.update (fun row => row.effectKey = input.effectKey)
        (EffectRow.reclaim (existing.attempts + 1) now) := by
    refine Table.update_congr fun row hrow hmet => ?_
    have hsame : effects.lookup EffectRow.effectKey input.effectKey = some row :=
      (Table.lookup_eq_some EffectRow.isKey_effectKey).mpr ⟨hrow, of_decide_eq_true hmet⟩
    rw [EffectRow.reclaimNext, Option.some.inj (hsame.symm.trans h)]
  cases hr : refuseEffect now existing with
  | some reply => simp only [claimEffect, hins, h, hr]
  | none => simp only [claimEffect, hins, h, hr, hupdate]

end Postgres

/-- Both backends claim alike. -/
theorem claimEffect_backend (backend : Backend) (now : Instant) (input : ClaimEffectInput)
    (db : Db) :
    backend.claimEffect now input db = Backend.postgres.claimEffect now input db := by
  cases backend with
  | postgres => rfl
  | d1 =>
    unfold Backend.claimEffect D1.claimEffect
    simp only [D1.runAt_selectEffect]
    cases hl : db.effects.lookup EffectRow.effectKey input.effectKey with
    | none =>
      obtain ⟨effects, hins, hpg⟩ := Postgres.claimEffect_new now hl
      simp only [D1.runAt_now, hpg, transactEffects]
      exact D1.runAt_commit (by simp [D1.Write.apply, hins]) now _
    | some existing =>
      rw [Postgres.claimEffect_existing now hl]
      have htake : D1.runAt now (D1.takeEffect input.effectKey existing) db =
          ({ db with
            effects := db.effects.update (fun row => row.effectKey = input.effectKey)
              (EffectRow.reclaim (existing.attempts + 1) now) },
            .ok (.claimed (existing.attempts + 1))) :=
        D1.runAt_commit rfl now _
      cases hstatus : existing.status with
      | done | uncertain => simp [hstatus, Postgres.refuseEffect, transactEffects]
      | failed => simp [hstatus, Postgres.refuseEffect, transactEffects, htake]
      | processing =>
        cases hstale : isStale existing.updatedAt now <;>
          simp [hstatus, Postgres.refuseEffect, transactEffects, htake, hstale]

/-- Both backends finish alike. -/
theorem finishEffect_backend (backend : Backend) (now : Instant) (effectKey : String)
    (input : EffectResult) (db : Db) :
    backend.finishEffect now effectKey input db =
      Backend.postgres.finishEffect now effectKey input db := by
  cases backend with
  | postgres => rfl
  | d1 =>
    unfold Backend.finishEffect D1.finishEffect
    simp only [D1.runAt_now]
    split
    · exact D1.runAt_commit rfl now ()
    · rw [D1.runAt_now]
      exact D1.runAt_commit rfl now ()

/-! ## One call -/

namespace EffectRow

/-- The row of an effect after a claim of it. -/
def afterClaim (now : Instant) (input : ClaimEffectInput) : Option EffectRow → EffectRow
  | none => claimed input now
  | some existing =>
    match Postgres.refuseEffect now existing with
    | some _ => existing
    | none => existing.reclaim (existing.attempts + 1) now

/-- The reply to a claim of an effect, by its row. -/
def claimReply (now : Instant) : Option EffectRow → ClaimEffectReply
  | none => .claimed 1
  | some existing =>
    (Postgres.refuseEffect now existing).getD (.claimed (existing.attempts + 1))

end EffectRow

/-- The row of an effect. -/
def effectRow (effectKey : String) (db : Db) : Option EffectRow :=
  db.effects.lookup EffectRow.effectKey effectKey

/-- A claim touches the effect that it names, and nothing else in the database. -/
theorem lookup_claimEffect (backend : Backend) (now : Instant) (input : ClaimEffectInput)
    (db : Db) :
    ∃ effects, backend.claimEffect now input db =
        ({ db with effects }, .ok (EffectRow.claimReply now (effectRow input.effectKey db))) ∧
      ∀ effectKey, effects.lookup EffectRow.effectKey effectKey =
        if input.effectKey = effectKey then
          some (EffectRow.afterClaim now input (effectRow input.effectKey db))
        else effectRow effectKey db := by
  rw [claimEffect_backend]
  unfold effectRow
  cases hl : db.effects.lookup EffectRow.effectKey input.effectKey with
  | none =>
    obtain ⟨effects, hins, hpg⟩ := Postgres.claimEffect_new now hl
    refine ⟨effects, by simp only [Backend.claimEffect, hpg, transactEffects]; rfl, fun k => ?_⟩
    exact Table.lookup_insert? EffectRow.isKey_effectKey hins k
  | some existing =>
    have hpg := Postgres.claimEffect_existing now hl
    cases hr : Postgres.refuseEffect now existing with
    | some reply =>
      refine ⟨db.effects, by
        simp [Backend.claimEffect, hpg, hr, transactEffects, EffectRow.claimReply], fun k => ?_⟩
      split
      · next hk => rw [← hk, hl]; simp [EffectRow.afterClaim, hr]
      · rfl
    | none =>
      refine ⟨db.effects.update (fun row => row.effectKey = input.effectKey)
        (EffectRow.reclaim (existing.attempts + 1) now), by
          simp only [Backend.claimEffect, hpg, hr, transactEffects, EffectRow.claimReply,
            Option.getD_none], fun k => ?_⟩
      rw [Table.lookup_update_key (EffectRow.reclaim_effectKey _ _)]
      split
      · next hk => rw [← hk, hl]; simp [EffectRow.afterClaim, hr]
      · rfl

/-- A finish touches the effect that it names, and nothing else in the database. -/
theorem lookup_finishEffect (backend : Backend) (now : Instant) (effectKey : String)
    (result : EffectResult) (db : Db) :
    ∃ effects, backend.finishEffect now effectKey result db = ({ db with effects }, .ok ()) ∧
      ∀ k, effects.lookup EffectRow.effectKey k =
        if effectKey = k then (effectRow k db).map (EffectRow.finish result now now)
        else effectRow k db := by
  rw [finishEffect_backend]
  exact ⟨_, rfl, Table.lookup_update_key (EffectRow.finish_effectKey _ _ _) effectKey⟩

/-! ## Runs of calls -/

/-- The status of an effect. -/
def effectStatus (effectKey : String) (db : Db) : Option EffectStatus :=
  (effectRow effectKey db).map EffectRow.status

/-- An effect whose outcome is settled: it is done, or uncertain. -/
def SettledStatus (status : Option EffectStatus) : Prop := ∃ s ∈ status, s.isTerminal = true

instance (status : Option EffectStatus) : Decidable (SettledStatus status) :=
  match status with
  | none => isFalse fun ⟨_, h, _⟩ => by simp at h
  | some s => decidable_of_iff (s.isTerminal = true) (by simp [SettledStatus])

theorem refuseEffect_settled (now : Instant) {existing : EffectRow}
    (h : existing.status.isTerminal = true) :
    ∃ reply, Postgres.refuseEffect now existing = some reply ∧ reply.isClaimed = false := by
  cases hs : existing.status with
  | done => exact ⟨.done, by simp [Postgres.refuseEffect, hs], rfl⟩
  | uncertain => exact ⟨.uncertain, by simp [Postgres.refuseEffect, hs], rfl⟩
  | processing | failed => rw [hs] at h; simp [EffectStatus.isTerminal] at h

/-- A claim of a settled effect is refused. -/
theorem claim_settled_refused {backend : Backend} {db : Db} {now : Instant}
    {input : ClaimEffectInput} (h : SettledStatus (effectStatus input.effectKey db)) :
    ((effectMachine backend).reply db (now, .claim input)).isClaimed = false := by
  obtain ⟨s, hs, hterminal⟩ := h
  obtain ⟨existing, hrow, rfl⟩ := Option.map_eq_some_iff.mp hs
  obtain ⟨reply, hreply, hnot⟩ := refuseEffect_settled now hterminal
  obtain ⟨effects, heq, -⟩ := lookup_claimEffect backend now input db
  simp only [Machine.reply, effectMachine, heq, hrow, EffectRow.claimReply, hreply,
    Option.getD_some, EffectReply.isClaimed]
  exact hnot

/-- A claim, of whichever effect, leaves a settled status as it is. -/
theorem claim_keeps_settled {backend : Backend} {db : Db} {now : Instant}
    {input : ClaimEffectInput} {effectKey : String} (h : SettledStatus (effectStatus effectKey db)) :
    effectStatus effectKey ((effectMachine backend).next db (now, .claim input)) =
      effectStatus effectKey db := by
  obtain ⟨s, hs, hterminal⟩ := h
  obtain ⟨existing, hrow, rfl⟩ := Option.map_eq_some_iff.mp hs
  obtain ⟨effects, heq, hlookup⟩ := lookup_claimEffect backend now input db
  simp only [Machine.next, effectMachine, heq, effectStatus]
  show (effects.lookup EffectRow.effectKey effectKey).map EffectRow.status = _
  rw [hlookup]
  split
  · next hk =>
    obtain ⟨reply, hreply, -⟩ := refuseEffect_settled now hterminal
    rw [hk, hrow]
    simp [EffectRow.afterClaim, hreply]
  · rfl

/-- A finish sets the status of the effect that it names. -/
theorem effectStatus_finish {backend : Backend} {db : Db} {now : Instant} {result : EffectResult}
    {finished effectKey : String} :
    effectStatus effectKey ((effectMachine backend).next db (now, .finish finished result)) =
      if finished = effectKey then
        (effectStatus effectKey db).map fun _ => result.outcome.status
      else effectStatus effectKey db := by
  obtain ⟨effects, heq, hlookup⟩ := lookup_finishEffect backend now finished result db
  simp only [Machine.next, effectMachine, heq, effectStatus]
  show (effects.lookup EffectRow.effectKey effectKey).map EffectRow.status = _
  rw [hlookup]
  split
  · simp [Option.map_map, Function.comp_def, EffectRow.finish]
  · rfl

/-- Once the effect is done or uncertain, it stays so, and no claim of it succeeds. -/
structure StaysSettled (backend : Backend) (effectKey : String) (db : Db)
    (calls : List (Instant × EffectCall)) : Prop where
  status : (effectMachine backend).Latches (effectStatus effectKey) SettledStatus db calls
  refused : ∀ pre mid post now input,
    calls = pre ++ mid ++ (now, .claim input) :: post → input.effectKey = effectKey →
    SettledStatus (effectStatus effectKey ((effectMachine backend).run db pre)) →
    ((effectMachine backend).reply ((effectMachine backend).run db (pre ++ mid))
      (now, .claim input)).isClaimed = false

/-- Every finish of the effect that comes after it was settled has the outcome that it has. -/
def FinishesAgree (backend : Backend) (effectKey : String) (db : Db)
    (calls : List (Instant × EffectCall)) : Prop :=
  ∀ pre now result post, calls = pre ++ (now, .finish effectKey result) :: post →
    ∀ s, effectStatus effectKey ((effectMachine backend).run db pre) = some s →
      s.isTerminal = true → result.outcome.status = s

/--
**A settled effect stays settled in exactly the runs whose finishes agree with it.** The finishing
statement has no guard of its own, so nothing but its callers keeps a done effect done.
-/
theorem effects_terminal_iff (backend : Backend) (effectKey : String) (db : Db)
    (calls : List (Instant × EffectCall)) :
    StaysSettled backend effectKey db calls ↔ FinishesAgree backend effectKey db calls := by
  constructor
  · intro h pre now result post hcalls s hs hterminal
    have hkept := Machine.latches_iff.mp h.status pre _ post hcalls ⟨s, hs, hterminal⟩
    rw [effectStatus_finish, if_pos rfl, hs] at hkept
    exact Option.some.inj hkept
  · intro h
    have hlatch : (effectMachine backend).Latches (effectStatus effectKey) SettledStatus db calls :=
      Machine.latches_iff.mpr fun pre a post hcalls hsettled => by
        obtain ⟨now, call⟩ := a
        cases call with
        | claim input => exact claim_keeps_settled hsettled
        | finish finished result =>
          rw [effectStatus_finish]
          split
          · next hk =>
            subst hk
            obtain ⟨s, hs, hterminal⟩ := hsettled
            rw [h pre now result post hcalls s hs hterminal, hs]
            rfl
          · rfl
    refine ⟨hlatch, fun pre mid post now input hcalls hkey hsettled => ?_⟩
    subst hkey
    apply claim_settled_refused
    rw [hlatch pre mid _ hcalls hsettled]
    exact hsettled

/--
A claim goes stale, its successor finishes as done, and then the first executor reports a failure:
the effect can be claimed, and executed, again.
-/
def lateFailure : List (Instant × EffectCall) :=
  let claim : EffectCall := .claim ⟨"article_archive", "k", "j"⟩
  [(0, claim), (660000, claim), (661000, .finish "k" ⟨.done, none, none⟩),
    (662000, .finish "k" ⟨.failed, some .retryable, none⟩), (663000, claim)]

/-- A late failure opens an effect that is done. -/
theorem lateFailure_unsettles :
    ¬ StaysSettled .postgres "k" ∅ lateFailure ∧ ¬ StaysSettled .d1 "k" ∅ lateFailure := by
  constructor
  · intro h
    have hdone := h.refused (lateFailure.take 3) ((lateFailure.drop 3).take 1) [] 663000
      ⟨"article_archive", "k", "j"⟩ rfl rfl (by decide)
    exact absurd hdone (by decide)
  · intro h
    have hdone := h.refused (lateFailure.take 3) ((lateFailure.drop 3).take 1) [] 663000
      ⟨"article_archive", "k", "j"⟩ rfl rfl (by decide)
    exact absurd hdone (by decide)

/-! ## The lease of a claim -/

/-- A claim is answered from the row of its effect alone. -/
theorem claimEffect_reply (backend : Backend) (now : Instant) (input : ClaimEffectInput) (db : Db) :
    (backend.claimEffect now input db).2 =
      .ok (EffectRow.claimReply now (effectRow input.effectKey db)) := by
  obtain ⟨effects, heq, -⟩ := lookup_claimEffect backend now input db
  rw [heq]

/-- A busy effect is one whose claim is no older than its lease. -/
theorem claimReply_busy {now retryAt : Instant} {row : Option EffectRow}
    (h : EffectRow.claimReply now row = .busy retryAt) :
    ∃ existing, row = some existing ∧ existing.status = .processing ∧
      retryAt = existing.updatedAt + 10 * 60000 ∧ now ≤ retryAt := by
  cases row with
  | none => cases h
  | some existing =>
    refine ⟨existing, rfl, ?_⟩
    simp only [EffectRow.claimReply, Postgres.refuseEffect] at h
    cases hstatus : existing.status with
    | done | uncertain | failed => simp [hstatus] at h
    | processing =>
      cases hstale : isStale existing.updatedAt now with
      | true => simp [hstatus, hstale] at h
      | false =>
        simp only [hstatus, hstale, Option.getD_some, Bool.false_eq_true, if_false,
          ClaimEffectReply.busy.injEq] at h
        have hage : ¬ now - existing.updatedAt > 10 * 60000 := of_decide_eq_false hstale
        exact ⟨rfl, h.symm, by linarith⟩

/-- Until the retry instant a claim of the effect is busy, and from then on it succeeds. -/
def RetriesExactly (backend : Backend) (db : Db) (retryAt : Instant) (u : Instant)
    (input : ClaimEffectInput) : Prop :=
  (u < retryAt → (backend.claimEffect u input db).2 = .ok (.busy retryAt)) ∧
    (retryAt ≤ u → ∃ attempts, (backend.claimEffect u input db).2 = .ok (.claimed attempts))

/--
**A busy effect can be claimed again from its retry instant on, but for that instant itself**: the
lease ends only after the millisecond that the reply names.
-/
theorem retriesExactly_iff {backend : Backend} {t retryAt u : Instant} {input : ClaimEffectInput}
    {db : Db} (h : (backend.claimEffect t input db).2 = .ok (.busy retryAt)) {input' : ClaimEffectInput}
    {db' : Db} (hrow : effectRow input'.effectKey db' = effectRow input.effectKey db) :
    RetriesExactly backend db' retryAt u input' ↔ u ≠ retryAt := by
  rw [claimEffect_reply] at h
  obtain ⟨existing, hexisting, hstatus, hretry, -⟩ := claimReply_busy (Except.ok.inj h)
  have hreply : (backend.claimEffect u input' db').2 =
      .ok (if u ≤ retryAt then .busy retryAt else .claimed (existing.attempts + 1)) := by
    rw [claimEffect_reply, hrow, hexisting]
    by_cases hlease : u ≤ retryAt
    · have hfresh : isStale existing.updatedAt u = false := decide_eq_false (by linarith)
      simp only [EffectRow.claimReply, Postgres.refuseEffect, hstatus, hfresh, hretry,
        Bool.false_eq_true, if_false, Option.getD_some]
      rw [if_pos (hretry ▸ hlease)]
    · have hstale : isStale existing.updatedAt u = true := decide_eq_true (by linarith)
      simp [EffectRow.claimReply, Postgres.refuseEffect, hstatus, hstale, hlease]
  unfold RetriesExactly
  rw [hreply]
  constructor
  · rintro ⟨-, hclaimed⟩ rfl
    obtain ⟨attempts, hattempts⟩ := hclaimed le_rfl
    rw [if_pos le_rfl] at hattempts
    cases hattempts
  · intro hne
    refine ⟨fun hbefore => by rw [if_pos hbefore.le], fun hafter => ⟨existing.attempts + 1, ?_⟩⟩
    rw [if_neg (not_le.mpr (lt_of_le_of_ne hafter hne.symm))]

/-- A database with one effect, claimed at the epoch. -/
def claimedEffect (backend : Backend) : Db :=
  (backend.claimEffect 0 ⟨"article_archive", "k", "j"⟩ ∅).1

theorem retriesExactly_later :
    RetriesExactly .postgres (claimedEffect .postgres) 600000 600001 ⟨"article_archive", "k", "j"⟩ ↔
      (600001 : Instant) ≠ 600000 := by
  have hbusy : (Backend.postgres.claimEffect 300000 ⟨"article_archive", "k", "j"⟩
      (claimedEffect .postgres)).2 = .ok (.busy 600000) := by decide
  exact retriesExactly_iff hbusy rfl

/-- At the retry instant the effect is busy still. -/
theorem busy_at_retryAt (backend : Backend) :
    (backend.claimEffect 300000 ⟨"article_archive", "k", "j"⟩ (claimedEffect backend)).2 =
        .ok (.busy 600000) ∧
      (backend.claimEffect 600000 ⟨"article_archive", "k", "j"⟩ (claimedEffect backend)).2 =
        .ok (.busy 600000) := by
  cases backend <;> exact ⟨by decide, by decide⟩

/-- A claim at the very instant of `retryAt` is refused. -/
theorem not_retriesExactly :
    ¬ RetriesExactly .postgres (claimedEffect .postgres) 600000 600000 ⟨"article_archive", "k", "j"⟩ ∧
      ¬ RetriesExactly .d1 (claimedEffect .d1) 600000 600000 ⟨"article_archive", "k", "j"⟩ := by
  have hnot : ∀ backend,
      ¬ RetriesExactly backend (claimedEffect backend) 600000 600000
        ⟨"article_archive", "k", "j"⟩ := by
    rintro backend ⟨-, hclaimed⟩
    obtain ⟨attempts, hattempts⟩ := hclaimed le_rfl
    rw [(busy_at_retryAt backend).2] at hattempts
    cases hattempts
  exact ⟨hnot _, hnot _⟩

end InboxServer
