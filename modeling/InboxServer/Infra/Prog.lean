import Mathlib

/-!
# Programs that call services, and their interleavings

A program is a tree of calls: it ends with a result, or makes a call and goes on with the answer.
Nothing is fixed about what the calls do, so one program text can be run alone (`Prog.exec`) or as
one of many that interleave call by call on a shared state (`Pool`).

A `Protocol` tracks a ghost state of one program from its calls and answers. `Prog.Follows` is the
weakest precondition of the program for it, with one rule for each way to build a program;
`Governed.advance` says that in a pool whose programs all follow the protocol, the program that
makes the next call meets the protocol's precondition and goes on following it.
-/

namespace Infra

universe u v w

/-- A program with calls in `C`, answered in `R`, that ends with a result in `α`. -/
inductive Prog (C : Type u) (R : C → Type v) (α : Type w) where
  | ret (a : α)
  | call (c : C) (k : R c → Prog C R α)

namespace Prog

variable {C : Type u} {R : C → Type v} {α β : Type w}

/-- `p`, then `f` on its result. -/
def bind : Prog C R α → (α → Prog C R β) → Prog C R β
  | ret a, f => f a
  | call c k, f => call c fun r => (k r).bind f

instance : Monad (Prog C R) where
  pure := ret
  bind := bind

/-- One call. -/
def perform (c : C) : Prog C R (R c) := call c ret

@[simp] theorem pure_eq (a : α) : (pure a : Prog C R α) = ret a := rfl

@[simp] theorem ret_bind (a : α) (f : α → Prog C R β) : (ret a >>= f : Prog C R β) = f a := rfl

@[simp] theorem call_bind (c : C) (k : R c → Prog C R α) (f : α → Prog C R β) :
    (call c k >>= f : Prog C R β) = call c fun r => k r >>= f := rfl

variable {σ : Type*}

/-- The program run alone, its calls answered by `serve`. -/
def exec (serve : σ → (c : C) → σ × R c) : Prog C R α → σ → σ × α
  | ret a, s => (s, a)
  | call c k, s => exec serve (k (serve s c).2) (serve s c).1

@[simp] theorem exec_ret (serve : σ → (c : C) → σ × R c) (a : α) (s : σ) :
    (ret a : Prog C R α).exec serve s = (s, a) := rfl

@[simp] theorem exec_call (serve : σ → (c : C) → σ × R c) (c : C) (k : R c → Prog C R α) (s : σ) :
    (call c k).exec serve s = (k (serve s c).2).exec serve (serve s c).1 := rfl

theorem exec_bind (serve : σ → (c : C) → σ × R c) (p : Prog C R α) (f : α → Prog C R β) (s : σ) :
    (p.bind f).exec serve s = (f (p.exec serve s).2).exec serve (p.exec serve s).1 := by
  induction p generalizing s with
  | ret a => rfl
  | call c k ih => exact ih _ _

end Prog

/-! ## Protocols -/

/--
A ghost state, the calls it permits, the answers that are relied on, and how it moves with a call
and its answer.
-/
structure Protocol (C : Type u) (R : C → Type v) (γ : Type*) where
  pre : γ → C → Prop
  rely : (c : C) → R c → Prop
  post : γ → (c : C) → R c → γ

namespace Prog

variable {C : Type u} {R : C → Type v} {α β : Type w} {γ : Type*} {P : Protocol C R γ}

/-- From ghost state `g`, every call of the program is permitted, and it ends with `Q`. -/
def Follows (P : Protocol C R γ) (Q : γ → α → Prop) : γ → Prog C R α → Prop
  | g, ret a => Q g a
  | g, call c k => P.pre g c ∧ ∀ r, P.rely c r → Follows P Q (P.post g c r) (k r)

@[simp] theorem follows_ret {Q : γ → α → Prop} {g : γ} {a : α} :
    Follows P Q g (ret a : Prog C R α) ↔ Q g a := Iff.rfl

theorem Follows.mono {Q Q' : γ → α → Prop} (hQ : ∀ g a, Q g a → Q' g a) {p : Prog C R α} {g : γ}
    (h : Follows P Q g p) : Follows P Q' g p := by
  induction p generalizing g with
  | ret a => exact hQ g a h
  | call c k ih => exact ⟨h.1, fun r hr => ih r (h.2 r hr)⟩

/-- The rule of sequencing. -/
theorem Follows.bind {Q : γ → β → Prop} {p : Prog C R α} {f : α → Prog C R β} {g : γ}
    (h : Follows P (fun g a => Follows P Q g (f a)) g p) : Follows P Q g (p >>= f) := by
  induction p generalizing g with
  | ret a => exact h
  | call c k ih => exact ⟨h.1, fun r hr => ih r (h.2 r hr)⟩

end Prog

/-! ## Pools -/

/-- Programs that share a state; a place without a program is idle, or has crashed. -/
structure Pool (ι σ : Type*) (C : Type u) (R : C → Type v) (α : Type w) where
  shared : σ
  procs : ι → Option (Prog C R α)

namespace Pool

variable {ι σ χ : Type*} [DecidableEq ι] {C : Type u} {R : C → Type v} {α : Type w}

/-- The program at `i` makes its next call, answered as `serve` says for the choice `x`. -/
def advance (serve : χ → σ → (c : C) → σ × R c) (w : Pool ι σ C R α) (i : ι) (x : χ) :
    Pool ι σ C R α :=
  match w.procs i with
  | some (.call c k) =>
    { shared := (serve x w.shared c).1
      procs := Function.update w.procs i (some (k (serve x w.shared c).2)) }
  | _ => w

/-- A program starts at `i`. -/
def start (w : Pool ι σ C R α) (i : ι) (p : Prog C R α) : Pool ι σ C R α :=
  { w with procs := Function.update w.procs i (some p) }

/-- The program at `i` is lost where it stands. -/
def crash (w : Pool ι σ C R α) (i : ι) : Pool ι σ C R α :=
  { w with procs := Function.update w.procs i none }

/-- Something else changes the shared state. -/
def disturb (w : Pool ι σ C R α) (s : σ) : Pool ι σ C R α := { w with shared := s }

variable {serve : χ → σ → (c : C) → σ × R c} {w : Pool ι σ C R α} {i : ι}

theorem advance_call {c : C} {k : R c → Prog C R α} (h : w.procs i = some (.call c k)) (x : χ) :
    w.advance serve i x =
      { shared := (serve x w.shared c).1
        procs := Function.update w.procs i (some (k (serve x w.shared c).2)) } := by
  unfold advance; rw [h]

end Pool

/-- Every program of the pool follows the protocol from its own ghost state. -/
def Governed {ι σ γ : Type*} {C : Type u} {R : C → Type v} {α : Type w} (P : Protocol C R γ)
    (Q : γ → α → Prop) (w : Pool ι σ C R α) (g : ι → γ) : Prop :=
  ∀ i p, w.procs i = some p → Prog.Follows P Q (g i) p

namespace Governed

variable {ι σ χ γ : Type*} [DecidableEq ι] {C : Type u} {R : C → Type v} {α : Type w}
  {P : Protocol C R γ} {Q : γ → α → Prop} {w : Pool ι σ C R α} {g : ι → γ}

theorem update (h : Governed P Q w g) {i : ι} {g' : γ} {s : σ} {o : Option (Prog C R α)}
    (ho : ∀ p, o = some p → Prog.Follows P Q g' p) :
    Governed P Q ⟨s, Function.update w.procs i o⟩ (Function.update g i g') := by
  intro j p hp
  by_cases hj : j = i
  · subst hj
    simp only [Function.update_self] at hp ⊢
    exact ho p hp
  · simp only [Function.update_of_ne hj] at hp ⊢
    exact h j p hp

/-- The caller meets the precondition of its call, and goes on following the protocol. -/
theorem advance (h : Governed P Q w g) (serve : χ → σ → (c : C) → σ × R c) {i : ι} {c : C}
    {k : R c → Prog C R α} (hi : w.procs i = some (.call c k)) (x : χ)
    (hrely : P.rely c (serve x w.shared c).2) :
    P.pre (g i) c ∧ Governed P Q (w.advance serve i x)
      (Function.update g i (P.post (g i) c (serve x w.shared c).2)) := by
  obtain ⟨hpre, hk⟩ := h i _ hi
  refine ⟨hpre, ?_⟩
  rw [Pool.advance_call hi]
  exact h.update fun p hp => by rw [← Option.some.inj hp]; exact hk _ hrely

theorem start (h : Governed P Q w g) {i : ι} {g' : γ} {p : Prog C R α}
    (hp : Prog.Follows P Q g' p) : Governed P Q (w.start i p) (Function.update g i g') :=
  h.update fun q hq => by rw [← Option.some.inj hq]; exact hp

theorem crash (h : Governed P Q w g) (i : ι) : Governed P Q (w.crash i) g := by
  intro j p hp
  by_cases hj : j = i
  · subst hj
    simp [Pool.crash] at hp
  · simp only [Pool.crash, Function.update_of_ne hj] at hp
    exact h j p hp

omit [DecidableEq ι] in
theorem disturb (h : Governed P Q w g) (s : σ) : Governed P Q (w.disturb s) g := h

end Governed

end Infra
