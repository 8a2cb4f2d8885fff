import InboxServer.Infra.Machine
import InboxServer.Infra.Prog

/-!
# Proof outlines of interleaved programs

A watched pool keeps a note for each of its programs, a history variable that is written at each
step of the program and read by nothing but the proofs. A `ProofOutline` says what holds of the
shared state, and what holds of each program where it stands. What a step of one program does to its
own place is its own business (`own`); that it does not break what another one relies on is
non-interference (`others`).

* `ProofOutline.run` — what the outline says holds after every admitted run
* `Watched.result_run` — a program that has ended has ended for good
-/

namespace Infra

universe u v w

/-- A pool with a note for each place. -/
structure Watched (ι σ : Type*) (C : Type u) (R : C → Type v) (α : Type w) (γ : Type*) where
  pool : Pool ι σ C R α
  notes : ι → γ

namespace Watched

variable {ι σ χ γ : Type*} [DecidableEq ι] {C : Type u} {R : C → Type v} {α : Type w}

/-- How a note moves with a call: the state before it, the answer, and the state after it. -/
abbrev Note (σ : Type*) (C : Type u) (R : C → Type v) (γ : Type*) :=
  γ → σ → (c : C) → R c → σ → γ

variable (serve : χ → σ → (c : C) → σ × R c) (note : Note σ C R γ)

/-- The program at a place takes its next step. -/
def step (w : Watched ι σ C R α γ) (s : ι × χ) : Watched ι σ C R α γ where
  pool := w.pool.advance serve s.1 s.2
  notes :=
    match w.pool.procs s.1 with
    | some (.call c _) =>
      let r := serve s.2 w.pool.shared c
      Function.update w.notes s.1 (note (w.notes s.1) w.pool.shared c r.2 r.1)
    | some (.ret _) | none => w.notes

/-- The pool as a machine; its inputs say which program takes its next step, and how. -/
def machine : Machine (Watched ι σ C R α γ) (ι × χ) Unit where
  step w s := (w.step serve note s, ())

omit [DecidableEq ι] in
/-- The result of the program at a place, if it has ended. -/
def result (w : Watched ι σ C R α γ) (i : ι) : Option α :=
  match w.pool.procs i with
  | some (.ret a) => some a
  | some (.call ..) | none => none

omit [DecidableEq ι] in
theorem result_eq_some {w : Watched ι σ C R α γ} {i : ι} {a : α} :
    w.result i = some a ↔ w.pool.procs i = some (.ret a) := by
  unfold result
  split
  · next b h => simp [h]
  · next h => simp [h]
  · next h => simp [h]

variable {serve note} {w : Watched ι σ C R α γ} {i : ι}

/-- Where no program is about to make a call, a step does nothing. -/
theorem step_idle (x : χ) (h : ∀ c k, w.pool.procs i ≠ some (.call c k)) :
    w.step serve note (i, x) = w := by
  unfold step
  cases hp : w.pool.procs i with
  | none => simp [Pool.advance, hp]
  | some p =>
    cases p with
    | ret a => simp [Pool.advance, hp]
    | call c k => exact absurd hp (h c k)

section Call

variable {c : C} {k : R c → Prog C R α} (h : w.pool.procs i = some (.call c k)) (x : χ)

include h

theorem step_shared :
    (w.step serve note (i, x)).pool.shared = (serve x w.pool.shared c).1 := by
  show (w.pool.advance serve i x).shared = _
  rw [Pool.advance_call h]

theorem step_procs_self :
    (w.step serve note (i, x)).pool.procs i = some (k (serve x w.pool.shared c).2) := by
  show (w.pool.advance serve i x).procs i = _
  rw [Pool.advance_call h]
  exact Function.update_self _ _ _

theorem step_notes_self :
    (w.step serve note (i, x)).notes i =
      note (w.notes i) w.pool.shared c (serve x w.pool.shared c).2 (serve x w.pool.shared c).1 := by
  unfold step
  simp only [h, Function.update_self]

end Call

theorem step_procs_of_ne {j : ι} (hne : j ≠ i) (x : χ) :
    (w.step serve note (i, x)).pool.procs j = w.pool.procs j := by
  show (w.pool.advance serve i x).procs j = _
  unfold Pool.advance
  split
  · exact Function.update_of_ne hne _ _
  · rfl

theorem step_notes_of_ne {j : ι} (hne : j ≠ i) (x : χ) :
    (w.step serve note (i, x)).notes j = w.notes j := by
  by_cases hcall : ∃ c k, w.pool.procs i = some (.call c k)
  · obtain ⟨c, k, hcall⟩ := hcall
    simp only [step, hcall, Function.update_of_ne hne]
  · push Not at hcall
    rw [step_idle x hcall]

theorem result_step_of_ne {j : ι} (hne : j ≠ i) (x : χ) :
    (w.step serve note (i, x)).result j = w.result j := by
  unfold result
  rw [step_procs_of_ne hne]

theorem result_step {a : α} (h : w.result i = some a) (s : ι × χ) :
    (w.step serve note s).result i = some a := by
  obtain ⟨j, x⟩ := s
  rw [result_eq_some] at h ⊢
  by_cases hj : i = j
  · subst hj
    rw [step_idle x (by simp [h]), h]
  · rw [step_procs_of_ne hj, h]

/-- A program that has ended has ended for good. -/
theorem result_run {a : α} (h : w.result i = some a) (steps : List (ι × χ)) :
    ((machine serve note).run w steps).result i = some a := by
  induction steps generalizing w with
  | nil => exact h
  | cons s steps ih => exact ih (result_step h s)

end Watched

/-- The shared state with the choice of the last step, such as the time at which it was taken. -/
def timed {σ χ : Type*} {C : Type u} {R : C → Type v} (serve : χ → σ → (c : C) → σ × R c) :
    χ → σ × χ → (c : C) → (σ × χ) × R c :=
  fun x s c => (((serve x s.1 c).1, x), (serve x s.1 c).2)

/-! ## Proof outlines -/

variable {ι σ χ γ : Type*} [DecidableEq ι] {C : Type u} {R : C → Type v} {α : Type w}

/--
What holds of the shared state (`shared`) and of each program with its note (`at_`), as long as
every step is one that `admits`.
-/
structure ProofOutline (serve : χ → σ → (c : C) → σ × R c) (note : Watched.Note σ C R γ) where
  admits : Watched ι σ C R α γ → ι × χ → Prop
  shared : σ → Prop
  at_ : ι → σ → γ → Prog C R α → Prop
  own : ∀ w i x c k, w.pool.procs i = some (.call c k) → admits w (i, x) →
    shared w.pool.shared → at_ i w.pool.shared (w.notes i) (.call c k) →
    shared (serve x w.pool.shared c).1 ∧
      at_ i (serve x w.pool.shared c).1
        (note (w.notes i) w.pool.shared c (serve x w.pool.shared c).2
          (serve x w.pool.shared c).1)
        (k (serve x w.pool.shared c).2)
  others : ∀ w i x c k j p, w.pool.procs i = some (.call c k) → w.pool.procs j = some p →
    admits w (i, x) → shared w.pool.shared → at_ i w.pool.shared (w.notes i) (.call c k) →
    j ≠ i → at_ j w.pool.shared (w.notes j) p → at_ j (serve x w.pool.shared c).1 (w.notes j) p

namespace ProofOutline

variable {serve : χ → σ → (c : C) → σ × R c} {note : Watched.Note σ C R γ}
  (O : ProofOutline (ι := ι) (α := α) serve note)

/-- The outline holds of a watched pool. -/
def Holds (w : Watched ι σ C R α γ) : Prop :=
  O.shared w.pool.shared ∧
    ∀ i p, w.pool.procs i = some p → O.at_ i w.pool.shared (w.notes i) p

variable {O} {w : Watched ι σ C R α γ}

theorem next (h : O.Holds w) {s : ι × χ} (hs : O.admits w s) :
    O.Holds ((Watched.machine serve note).next w s) := by
  obtain ⟨i, x⟩ := s
  show O.Holds (w.step serve note (i, x))
  by_cases hcall : ∃ c k, w.pool.procs i = some (.call c k)
  · obtain ⟨c, k, hcall⟩ := hcall
    have hi := h.2 i _ hcall
    obtain ⟨hshared, hown⟩ := O.own w i x c k hcall hs h.1 hi
    refine ⟨by rw [Watched.step_shared hcall]; exact hshared, fun j p hp => ?_⟩
    rw [Watched.step_shared hcall]
    by_cases hj : j = i
    · subst hj
      rw [Watched.step_procs_self hcall] at hp
      rw [Watched.step_notes_self hcall, ← Option.some.inj hp]
      exact hown
    · rw [Watched.step_procs_of_ne hj] at hp
      rw [Watched.step_notes_of_ne hj]
      exact O.others w i x c k j p hcall hp hs h.1 hi hj (h.2 j p hp)
  · push Not at hcall
    rw [Watched.step_idle x hcall]
    exact h

/-- **What the outline says holds after every admitted run.** -/
theorem run (h : O.Holds w) {steps : List (ι × χ)}
    (hsteps : (Watched.machine serve note).Admits O.admits w steps) :
    O.Holds ((Watched.machine serve note).run w steps) :=
  Machine.run_invariant (I := O.Holds) (fun _ _ hw hs => next hw hs) h hsteps

end ProofOutline

end Infra
