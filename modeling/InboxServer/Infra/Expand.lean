import InboxServer.Infra.Contract
import InboxServer.Infra.Trace

/-!
# Calls that are programs themselves

A call of one program may stand for a whole program of smaller calls. `Prog.expand` puts these
programs in place; what one of them leaves behind for later calls (a closure, a connection) is
handed on from call to call.

* `Prog.Meets.expand` — a program that meets a contract keeps to the contract of the smaller calls,
  when each of its calls does
-/

namespace Infra

namespace Prog

variable {C C' : Type} {R : C → Type} {R' : C' → Type} {α τ : Type}

/-- The program with a program `f` for each of its calls. -/
def expand (f : τ → (c : C) → Prog C' R' (τ × R c)) : τ → Prog C R α → Prog C' R' α
  | _, ret a => ret a
  | t, call c k => f t c >>= fun r => expand f r.1 (k r.2)

variable {γ γ' : Type*} {K : Contract C R γ} {K' : Contract C' R' γ'}

/--
The rule of expansion: `rel` relates what is handed on and the two notes, and each program that is
put in place of a call keeps it.
-/
theorem Meets.expand {f : τ → (c : C) → Prog C' R' (τ × R c)} (rel : τ → γ → γ' → Prop)
    (hcall : ∀ t g g' c, rel t g g' → K.asks g c →
      Meets K' (fun g'' r => ∃ h, K.learns g c r.2 h ∧ rel r.1 h g'') g' (f t c))
    {Q : γ → α → Prop} {p : Prog C R α} {t : τ} {g : γ} {g' : γ'} (hrel : rel t g g')
    (h : Meets K Q g p) :
    Meets K' (fun g'' a => ∃ t h, rel t h g'' ∧ Q h a) g' (p.expand f t) := by
  induction p generalizing t g g' with
  | ret a => exact ⟨t, g, hrel, h⟩
  | call c k ih =>
    obtain ⟨hasks, hgo⟩ := h
    refine Meets.bind ((hcall t g g' c hrel hasks).mono ?_)
    rintro g'' r ⟨g₁, hlearns, hrel'⟩
    exact ih r.2 hrel' (hgo _ _ hlearns)

/-- The rule of sequencing for programs that may throw. -/
theorem Meets.andThen {ε α β : Type} {Q' : γ → Except ε α → Prop} {Q : γ → Except ε β → Prop}
    {p : Prog C R (Except ε α)} {f : α → Prog C R (Except ε β)} {g : γ} (h : Meets K Q' g p)
    (hok : ∀ g a, Q' g (.ok a) → Meets K Q g (f a))
    (herror : ∀ g e, Q' g (.error e) → Q g (.error e)) : Meets K Q g (p.andThen f) := by
  refine Meets.bind (h.mono fun g r hr => ?_)
  cases r with
  | ok a => exact hok g a hr
  | error e => exact herror g e hr

end Prog

end Infra
