import InboxServer.Infra.Interleave

/-!
# Contracts of programs

A contract says of a program's next call what its note must allow, and how the answer and the new
note may come out. `Prog.Meets` runs through a program by it, with one rule for each way to build a
program.

* `Prog.Meets.ends` — what a program meets holds wherever it may end
* `Prog.Makes.meets` — what no call of a program breaks holds where it ends
* `ProofOutline.ofContract` — what contracts give for programs that interleave: each call is shown
  to keep the contract once, whatever the programs are
* `Watched.Keeps.run` — the same where what is kept is said of the shared state and of all the notes
  together
-/

namespace Infra

universe u v w

/-- The calls that a note allows, and the answers and notes that may follow. -/
structure Contract (C : Type u) (R : C → Type v) (γ : Type*) where
  asks : γ → C → Prop
  learns : γ → (c : C) → R c → γ → Prop

namespace Prog

variable {C : Type u} {R : C → Type v} {α β : Type w} {γ : Type*} {K : Contract C R γ}

/-- From the note `g`, every call of the program is allowed, and it ends with `Q`. -/
def Meets (K : Contract C R γ) (Q : γ → α → Prop) : γ → Prog C R α → Prop
  | g, ret a => Q g a
  | g, call c k => K.asks g c ∧ ∀ r g', K.learns g c r g' → Meets K Q g' (k r)

@[simp] theorem meets_ret {Q : γ → α → Prop} {g : γ} {a : α} :
    Meets K Q g (ret a : Prog C R α) ↔ Q g a := Iff.rfl

/-- The rule of a call. -/
theorem Meets.perform {α : Type v} {Q : γ → α → Prop} {g : γ} {c : C} {f : R c → Prog C R α}
    (hasks : K.asks g c)
    (hgo : ∀ r g', K.learns g c r g' → Meets K Q g' (f r)) :
    Meets K Q g (Prog.perform c >>= f) := ⟨hasks, hgo⟩

theorem Meets.mono {Q Q' : γ → α → Prop} (hQ : ∀ g a, Q g a → Q' g a) {p : Prog C R α} {g : γ}
    (h : Meets K Q g p) : Meets K Q' g p := by
  induction p generalizing g with
  | ret a => exact hQ g a h
  | call c k ih => exact ⟨h.1, fun r g' hr => ih r (h.2 r g' hr)⟩

/-- The rule of sequencing. -/
theorem Meets.bind {Q : γ → β → Prop} {p : Prog C R α} {f : α → Prog C R β} {g : γ}
    (h : Meets K (fun g a => Meets K Q g (f a)) g p) : Meets K Q g (p >>= f) := by
  induction p generalizing g with
  | ret a => exact h
  | call c k ih => exact ⟨h.1, fun r g' hr => ih r (h.2 r g' hr)⟩

/-- The rule of sequencing for programs that may throw. -/
theorem Meets.exceptBind {ε α β : Type w} {Q : γ → Except ε β → Prop} {x : ExceptT ε (Prog C R) α}
    {f : α → ExceptT ε (Prog C R) β} {g : γ}
    (h : Meets K (fun g r => match r with
      | .ok a => Meets K Q g (f a).run
      | .error e => Q g (.error e)) g x.run) :
    Meets K Q g (x >>= f).run := by
  refine Meets.bind (h.mono fun g r hr => ?_)
  cases r with
  | ok a => exact hr
  | error e => exact hr

/-! ### Ends -/

/-- From the note `g`, with the answers that `learns` allows, the program may end. -/
inductive Ends (learns : γ → (c : C) → R c → γ → Prop) : γ → Prog C R α → γ → α → Prop
  | ret (g : γ) (a : α) : Ends learns g (.ret a) g a
  | call {g g' g'' : γ} {c : C} {k : R c → Prog C R α} {r : R c} {a : α}
      (answered : learns g c r g') (rest : Ends learns g' (k r) g'' a) :
      Ends learns g (.call c k) g'' a

theorem Meets.ends {Q : γ → α → Prop} {p : Prog C R α} {g g' : γ} {a : α} (h : Meets K Q g p)
    (hends : Ends K.learns g p g' a) : Q g' a := by
  induction hends with
  | ret g a => exact h
  | call answered _ ih => exact ih (h.2 _ _ answered)

/-- A program that is served as `learns` allows ends so. -/
theorem ends_exec {learns : γ → (c : C) → R c → γ → Prop} {serve : γ → (c : C) → γ × R c}
    (hserve : ∀ g c, learns g c (serve g c).2 (serve g c).1) (p : Prog C R α) (g : γ) :
    Ends learns g p (p.exec serve g).1 (p.exec serve g).2 := by
  induction p generalizing g with
  | ret a => exact .ret g a
  | call c k ih => exact .call (hserve g c) (ih _ _)

/-! ### Programs of a kind of calls -/

/-- Every call of the program is one of the kind. -/
def Makes (kind : C → Prop) : Prog C R α → Prop
  | ret _ => True
  | call c k => kind c ∧ ∀ r, Makes kind (k r)

theorem Makes.bind {kind : C → Prop} {p : Prog C R α} {f : α → Prog C R β} (hp : p.Makes kind)
    (hf : ∀ a, (f a).Makes kind) : (p >>= f).Makes kind := by
  induction p with
  | ret a => exact hf a
  | call c k ih => exact ⟨hp.1, fun r => ih r (hp.2 r)⟩

theorem Makes.mono {kind kind' : C → Prop} (h : ∀ c, kind c → kind' c) {p : Prog C R α}
    (hp : p.Makes kind) : p.Makes kind' := by
  induction p with
  | ret a => trivial
  | call c k ih => exact ⟨h c hp.1, fun r => ih r (hp.2 r)⟩

theorem makes_true (p : Prog C R α) : p.Makes fun _ => True := by
  induction p with
  | ret a => trivial
  | call c k ih => exact ⟨trivial, ih⟩

/-- What no call of the kind breaks holds where the program ends. -/
theorem Makes.meets {kind : C → Prop} {inv : γ → Prop} {p : Prog C R α} {g : γ} (hp : p.Makes kind)
    (hasks : ∀ g c, inv g → kind c → K.asks g c)
    (hkeeps : ∀ g c r g', inv g → kind c → K.learns g c r g' → inv g') (hg : inv g) :
    p.Meets K (fun g _ => inv g) g := by
  induction p generalizing g with
  | ret a => exact hg
  | call c k ih =>
    exact ⟨hasks g c hg hp.1, fun r g' hr => ih r (hp.2 r) (hkeeps g c r g' hg hp.1 hr)⟩

theorem Makes.follows {kind : C → Prop} {inv : γ → Prop} {P : Protocol C R γ} {p : Prog C R α}
    {g : γ} (hp : p.Makes kind) (hpre : ∀ g c, inv g → kind c → P.pre g c)
    (hpost : ∀ g c r, inv g → kind c → inv (P.post g c r)) (hg : inv g) :
    p.Follows P (fun g _ => inv g) g := by
  induction p generalizing g with
  | ret a => exact hg
  | call c k ih =>
    exact ⟨hpre g c hg hp.1, fun r _ => ih r (hp.2 r) (hpost g c r hg hp.1)⟩

end Prog

variable {ι σ χ γ : Type*} [DecidableEq ι] {C : Type u} {R : C → Type v} {α : Type w}
  {serve : χ → σ → (c : C) → σ × R c} {note : Watched.Note σ C R γ}

/--
The shared state keeps `shared`, and each place what its note `knows`, when every call that a
contract allows does so and is answered as the contract says.
-/
def ProofOutline.ofContract (K : Contract C R γ) (Q : ι → γ → α → Prop)
    (admits : Watched ι σ C R α γ → ι × χ → Prop) (shared : σ → Prop) (knows : σ → γ → Prop)
    (own : ∀ w i x c, admits w (i, x) → shared w.pool.shared → knows w.pool.shared (w.notes i) →
      K.asks (w.notes i) c →
      let r := serve x w.pool.shared c
      let g' := note (w.notes i) w.pool.shared c r.2 r.1
      shared r.1 ∧ knows r.1 g' ∧ K.learns (w.notes i) c r.2 g')
    (others : ∀ w i x c g, admits w (i, x) → shared w.pool.shared →
      knows w.pool.shared (w.notes i) → K.asks (w.notes i) c → knows w.pool.shared g →
      knows (serve x w.pool.shared c).1 g) :
    ProofOutline (ι := ι) (α := α) serve note where
  admits := admits
  shared := shared
  at_ i s g p := knows s g ∧ Prog.Meets K (Q i) g p
  own w i x c k _ hadmits hshared h := by
    obtain ⟨hknows, hasks, hgo⟩ := h
    obtain ⟨hshared', hknows', hlearns⟩ := own w i x c hadmits hshared hknows hasks
    exact ⟨hshared', hknows', hgo _ _ hlearns⟩
  others w i x c k j p _ _ hadmits hshared h _ hother :=
    ⟨others w i x c (w.notes j) hadmits hshared h.1 h.2.1 hother.1, hother.2⟩

/-- Where there is a program, there is one after every run. -/
theorem Watched.procs_run {w : Watched ι σ C R α γ} {i : ι} (h : (w.pool.procs i).isSome)
    (steps : List (ι × χ)) :
    (((Watched.machine serve note).run w steps).pool.procs i).isSome := by
  refine Machine.run_invariant (I := fun w : Watched ι σ C R α γ => (w.pool.procs i).isSome)
    (fun w s hw _ => ?_) h
    (Machine.admits_true steps)
  obtain ⟨j, x⟩ := s
  show ((w.step serve note (j, x)).pool.procs i).isSome
  by_cases hj : i = j
  · subst hj
    by_cases hcall : ∃ c k, w.pool.procs i = some (.call c k)
    · obtain ⟨c, k, hcall⟩ := hcall
      rw [Watched.step_procs_self hcall]
      rfl
    · push Not at hcall
      rw [Watched.step_idle x hcall]
      exact hw
  · rw [Watched.step_procs_of_ne hj]
    exact hw

omit [DecidableEq ι] in
/-- The program that takes its next step makes a call that is allowed for its note and the state. -/
def Watched.Allowed (allows : γ → σ → χ → C → Prop) (w : Watched ι σ C R α γ) (s : ι × χ) : Prop :=
  ∀ c k, w.pool.procs s.1 = some (.call c k) → allows (w.notes s.1) w.pool.shared s.2 c

instance Watched.decidableAllowed {allows : γ → σ → χ → C → Prop}
    [∀ g s x c, Decidable (allows g s x c)] (w : Watched ι σ C R α γ) (s : ι × χ) :
    Decidable (w.Allowed allows s) :=
  match h : w.pool.procs s.1 with
  | some (.call c k) =>
    decidable_of_iff (allows (w.notes s.1) w.pool.shared s.2 c)
      ⟨fun hallows c' k' hcall => by
        rw [h] at hcall
        cases hcall
        exact hallows, fun hall => hall c k h⟩
  | some (.ret a) => isTrue fun c k hcall => by
      rw [h] at hcall
      cases hcall
  | none => isTrue fun c k hcall => by
      rw [h] at hcall
      cases hcall

/-- As `ofContract`, where what is admitted is said of the calls that are made. -/
def ProofOutline.ofCalls (K : Contract C R γ) (Q : ι → γ → α → Prop)
    (allows : γ → σ → χ → C → Prop) (shared : σ → Prop) (knows : σ → γ → Prop)
    (own : ∀ g s x c, allows g s x c → shared s → knows s g → K.asks g c →
      let r := serve x s c
      let g' := note g s c r.2 r.1
      shared r.1 ∧ knows r.1 g' ∧ K.learns g c r.2 g')
    (others : ∀ g s x c g', allows g s x c → shared s → knows s g → K.asks g c → knows s g' →
      knows (serve x s c).1 g') :
    ProofOutline (ι := ι) (α := α) serve note where
  admits := Watched.Allowed allows
  shared := shared
  at_ i s g p := knows s g ∧ Prog.Meets K (Q i) g p
  own w i x c k hcall hadmits hshared h := by
    obtain ⟨hknows, hasks, hgo⟩ := h
    obtain ⟨hshared', hknows', hlearns⟩ := own _ _ x c (hadmits c k hcall) hshared hknows hasks
    exact ⟨hshared', hknows', hgo _ _ hlearns⟩
  others w i x c k j p hcall _ hadmits hshared h _ hother :=
    ⟨others _ _ x c _ (hadmits c k hcall) hshared h.1 h.2.1 hother.1, hother.2⟩

omit [DecidableEq ι] in
/-- What holds of a program that has ended. -/
theorem ProofOutline.ofContract_result {K : Contract C R γ} {Q : ι → γ → α → Prop}
    {admits : Watched ι σ C R α γ → ι × χ → Prop} {shared : σ → Prop} {knows : σ → γ → Prop} {own}
    {others} {w : Watched ι σ C R α γ}
    (h : (ofContract K Q admits shared knows own others : ProofOutline serve note).Holds w)
    {i : ι} {a : α} (hresult : w.result i = some a) : Q i (w.notes i) a :=
  (h.2 i _ (Watched.result_eq_some.mp hresult)).2

/-! ## Notes that are kept together -/

namespace Watched

variable {K : Contract C R γ} {Q : ι → γ → α → Prop} {inv : σ → (ι → γ) → Prop}

omit [DecidableEq ι] in
/-- The shared state and the notes satisfy `inv`, and every program meets the contract. -/
def Keeps (K : Contract C R γ) (Q : ι → γ → α → Prop) (inv : σ → (ι → γ) → Prop)
    (w : Watched ι σ C R α γ) : Prop :=
  inv w.pool.shared w.notes ∧
    ∀ i p, w.pool.procs i = some p → Prog.Meets K (Q i) (w.notes i) p

/-- A call that is allowed keeps `inv`, and is answered as the contract says. -/
def KeepsCall (K : Contract C R γ) (inv : σ → (ι → γ) → Prop)
    (serve : χ → σ → (c : C) → σ × R c) (note : Note σ C R γ) (s : σ) (notes : ι → γ) (i : ι) (x : χ)
    (c : C) : Prop :=
  let r := serve x s c
  let g' := note (notes i) s c r.2 r.1
  inv r.1 (Function.update notes i g') ∧ K.learns (notes i) c r.2 g'

theorem Keeps.step {w : Watched ι σ C R α γ} (h : w.Keeps K Q inv) {i : ι} {x : χ}
    (hcall : ∀ c k, w.pool.procs i = some (.call c k) → K.asks (w.notes i) c →
      KeepsCall K inv serve note w.pool.shared w.notes i x c) :
    (w.step serve note (i, x)).Keeps K Q inv := by
  by_cases hnext : ∃ c k, w.pool.procs i = some (.call c k)
  · obtain ⟨c, k, hnext⟩ := hnext
    obtain ⟨hasks, hgo⟩ := h.2 i _ hnext
    obtain ⟨hinv, hlearns⟩ := hcall c k hnext hasks
    have hnotes : (w.step serve note (i, x)).notes = Function.update w.notes i
        (note (w.notes i) w.pool.shared c (serve x w.pool.shared c).2
          (serve x w.pool.shared c).1) := by
      unfold Watched.step
      simp only [hnext]
    constructor
    · rw [Watched.step_shared hnext, hnotes]
      exact hinv
    · intro j p hp
      by_cases hj : j = i
      · subst hj
        rw [Watched.step_procs_self hnext] at hp
        rw [Watched.step_notes_self hnext, ← Option.some.inj hp]
        exact hgo _ _ hlearns
      · rw [Watched.step_procs_of_ne hj] at hp
        rw [Watched.step_notes_of_ne hj]
        exact h.2 j p hp
  · push Not at hnext
    rw [Watched.step_idle x hnext]
    exact h

/-- **What every admitted call keeps holds after every admitted run.** -/
theorem Keeps.run {admits : Watched ι σ C R α γ → ι × χ → Prop} {w : Watched ι σ C R α γ}
    (h : w.Keeps K Q inv)
    (hcall : ∀ w i x c k, w.pool.procs i = some (.call c k) → admits w (i, x) →
      inv w.pool.shared w.notes → K.asks (w.notes i) c →
      KeepsCall K inv serve note w.pool.shared w.notes i x c)
    {steps : List (ι × χ)} (hsteps : (machine serve note).Admits admits w steps) :
    ((machine serve note).run w steps).Keeps K Q inv :=
  Machine.run_invariant (fun _ s hw hs => hw.step fun c k hnext hasks =>
    hcall _ s.1 s.2 c k hnext hs hw.1 hasks) h hsteps

end Watched

end Infra
