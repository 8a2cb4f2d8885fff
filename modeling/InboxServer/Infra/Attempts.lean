import InboxServer.Infra.Expand

/-!
# Programs that may be cut off

A program that crashes has made some of its calls, and its state is what they have left. `Prog.Reaches`
says how far it may get; what every call that is allowed keeps, a program keeps wherever it is cut off.

* `Prog.Meets.reaches` — what is kept holds after every attempt, and a result is as promised
-/

namespace Infra

universe u v w

namespace Prog

variable {C : Type u} {R : C → Type v} {α : Type w} {γ : Type*}

/-- From `g`, the program gets to `g'`: with its result, or cut off before its next call. -/
inductive Reaches (learns : γ → (c : C) → R c → γ → Prop) :
    γ → Prog C R α → γ → Option α → Prop
  | cut (g : γ) (p : Prog C R α) : Reaches learns g p g none
  | ret (g : γ) (a : α) : Reaches learns g (.ret a) g (some a)
  | call {g g' g'' : γ} {c : C} {k : R c → Prog C R α} {r : R c} {result : Option α}
      (answered : learns g c r g') (rest : Reaches learns g' (k r) g'' result) :
      Reaches learns g (.call c k) g'' result

/-- What every call that is allowed keeps holds where the program ends. -/
theorem Meets.keeps {K : Contract C R γ} {Q : γ → α → Prop} {inv : γ → Prop} {p : Prog C R α} {g : γ}
    (h : Meets K Q g p)
    (hkeeps : ∀ g c r g', inv g → K.asks g c → K.learns g c r g' → inv g') (hg : inv g) :
    Meets K (fun g a => inv g ∧ Q g a) g p := by
  induction p generalizing g with
  | ret a => exact ⟨hg, h⟩
  | call c k ih => exact ⟨h.1, fun r g' hr => ih r (h.2 r g' hr) (hkeeps _ _ _ _ hg h.1 hr)⟩

theorem Meets.reaches {K : Contract C R γ} {Q : γ → α → Prop} {inv : γ → Prop} {p : Prog C R α}
    {g g' : γ} {result : Option α} (h : Meets K Q g p)
    (hkeeps : ∀ g c r g', inv g → K.asks g c → K.learns g c r g' → inv g') (hg : inv g)
    (hreaches : Reaches K.learns g p g' result) : inv g' ∧ ∀ a, result = some a → Q g' a := by
  induction hreaches with
  | cut g p => exact ⟨hg, fun a ha => by cases ha⟩
  | ret g a =>
    refine ⟨hg, fun b hb => ?_⟩
    cases hb
    exact h
  | call answered _ ih => exact ih (h.2 _ _ answered) (hkeeps _ _ _ _ hg h.1 answered)

/-- A program that is served as `learns` allows gets to its end. -/
theorem reaches_exec {learns : γ → (c : C) → R c → γ → Prop} {serve : γ → (c : C) → γ × R c}
    (hserve : ∀ g c, learns g c (serve g c).2 (serve g c).1) (p : Prog C R α) (g : γ) :
    Reaches learns g p (p.exec serve g).1 (some (p.exec serve g).2) := by
  induction p generalizing g with
  | ret a => exact .ret g a
  | call c k ih => exact .call (hserve g c) (ih _ _)

end Prog

end Infra
