import Mathlib

/-!
# Machines and their runs

A machine takes inputs one at a time, each with a reply. Everything that an environment decides
(which call, at what time, with which random values) is in the input, so a run is the list of its
inputs.

* `Machine.run_invariant` — what every admitted step keeps holds after every admitted run
* `Machine.history_induction` — the same for what depends on the whole history of a run
* `Machine.latches_iff` — a value that no single step moves stays for ever
* `Machine.lockstep` — machines whose admitted steps are the same have the same admitted runs
-/

namespace Infra

universe u v w

/-- What an input does to the state, and the reply to it. -/
structure Machine (σ : Type u) (ι : Type v) (ρ : Type w) where
  step : σ → ι → σ × ρ

namespace Machine

variable {σ : Type u} {ι : Type v} {ρ : Type w} (M : Machine σ ι ρ)

/-- The state after an input. -/
def next (s : σ) (a : ι) : σ := (M.step s a).1

/-- The reply to an input. -/
def reply (s : σ) (a : ι) : ρ := (M.step s a).2

/-- The state after a list of inputs. -/
def run (s : σ) (as : List ι) : σ := as.foldl M.next s

@[simp] theorem run_nil (s : σ) : M.run s [] = s := rfl

@[simp] theorem run_cons (s : σ) (a : ι) (as : List ι) :
    M.run s (a :: as) = M.run (M.next s a) as := rfl

theorem run_append (s : σ) (as bs : List ι) : M.run s (as ++ bs) = M.run (M.run s as) bs :=
  List.foldl_append

@[simp] theorem run_snoc (s : σ) (as : List ι) (a : ι) :
    M.run s (as ++ [a]) = M.next (M.run s as) a := by rw [run_append]; rfl

/-- Every input of the list is one that the environment `G` may send in the state it meets. -/
def Admits (G : σ → ι → Prop) : σ → List ι → Prop
  | _, [] => True
  | s, a :: as => G s a ∧ Admits G (M.next s a) as

variable {M} {G : σ → ι → Prop}

instance decidableAdmits [∀ s a, Decidable (G s a)] :
    (s : σ) → (as : List ι) → Decidable (M.Admits G s as)
  | _, [] => isTrue trivial
  | s, a :: as => @instDecidableAnd _ _ _ (decidableAdmits (M.next s a) as)

theorem admits_append {s : σ} {as bs : List ι} :
    M.Admits G s (as ++ bs) ↔ M.Admits G s as ∧ M.Admits G (M.run s as) bs := by
  induction as generalizing s with
  | nil => simp [Admits]
  | cons a as ih => simp only [List.cons_append, Admits, ih, run_cons, and_assoc]

theorem admits_snoc {s : σ} {as : List ι} {a : ι} :
    M.Admits G s (as ++ [a]) ↔ M.Admits G s as ∧ G (M.run s as) a := by
  rw [admits_append]; simp [Admits]

theorem Admits.left {s : σ} {as bs : List ι} (h : M.Admits G s (as ++ bs)) : M.Admits G s as :=
  (admits_append.mp h).1

/-- The input at a position of an admitted run is admitted there. -/
theorem Admits.at {s : σ} {pre post : List ι} {a : ι} (h : M.Admits G s (pre ++ a :: post)) :
    G (M.run s pre) a := (admits_append.mp h).2.1

/-- A run is admitted when each of its inputs is, in the state that it meets. -/
theorem admits_of_forall {s : σ} {as : List ι}
    (h : ∀ pre a post, as = pre ++ a :: post → G (M.run s pre) a) : M.Admits G s as := by
  induction as generalizing s with
  | nil => trivial
  | cons a as ih =>
    exact ⟨h [] a as rfl, ih fun pre b post heq => h (a :: pre) b post (by rw [heq]; rfl)⟩

theorem Admits.mono {G' : σ → ι → Prop} (hG : ∀ s a, G s a → G' s a) {s : σ} {as : List ι}
    (h : M.Admits G s as) : M.Admits G' s as := by
  induction as generalizing s with
  | nil => trivial
  | cons a as ih => exact ⟨hG _ _ h.1, ih h.2⟩

/-- What every admitted step keeps holds after every admitted run. -/
theorem run_invariant {I : σ → Prop} (hstep : ∀ s a, I s → G s a → I (M.next s a)) {s : σ}
    {as : List ι} (hs : I s) (h : M.Admits G s as) : I (M.run s as) := by
  induction as generalizing s with
  | nil => exact hs
  | cons a as ih => exact ih (hstep s a hs h.1) h.2

/-- What holds of the empty history and survives every admitted input holds of every run. -/
theorem history_induction {s : σ} {P : List ι → Prop} (hnil : P [])
    (hsnoc : ∀ as a, M.Admits G s as → P as → G (M.run s as) a → P (as ++ [a])) {as : List ι}
    (h : M.Admits G s as) : P as := by
  induction as using List.reverseRecOn with
  | nil => exact hnil
  | append_singleton as a ih =>
    obtain ⟨has, ha⟩ := admits_snoc.mp h
    exact hsnoc as a has (ih has) ha

/-- An environment that may send everything admits every list of inputs. -/
theorem admits_true {s : σ} (as : List ι) : M.Admits (fun _ _ => True) s as := by
  induction as generalizing s with
  | nil => trivial
  | cons a as ih => exact ⟨trivial, ih⟩

/-! ## Values that stay -/

section Latch

variable {τ : Type*} (M)

/-- Once the view `v` of the state satisfies `T`, it stays as it is for the rest of the run. -/
def Latches (v : σ → τ) (T : τ → Prop) (s : σ) (as : List ι) : Prop :=
  ∀ pre mid post, as = pre ++ mid ++ post → T (v (M.run s pre)) →
    v (M.run s (pre ++ mid)) = v (M.run s pre)

variable {M}

/-- A view stays over a run exactly when no single input of the run moves it. -/
theorem latches_iff {v : σ → τ} {T : τ → Prop} {s : σ} {as : List ι} :
    M.Latches v T s as ↔ ∀ pre a post, as = pre ++ a :: post → T (v (M.run s pre)) →
      v (M.next (M.run s pre) a) = v (M.run s pre) := by
  constructor
  · intro h pre a post has hT
    have := h pre [a] post (by simp [has]) hT
    rwa [run_snoc] at this
  · intro h pre mid post has hT
    induction mid using List.reverseRecOn generalizing post with
    | nil => rw [List.append_nil]
    | append_singleton mid a ih =>
      have hmid : v (M.run s (pre ++ mid)) = v (M.run s pre) :=
        ih (a :: post) (by simp [has])
      rw [← List.append_assoc, run_snoc, ← hmid]
      exact h (pre ++ mid) a post (by simp [has]) (by rw [hmid]; exact hT)

end Latch

/-! ## Two machines -/

/-- The replies to a list of inputs, in order. -/
def replies (M : Machine σ ι ρ) : σ → List ι → List ρ
  | _, [] => []
  | s, a :: as => M.reply s a :: replies M (M.next s a) as

/-- Two machines whose admitted steps are the same reply and move alike over an admitted run. -/
theorem lockstep {M N : Machine σ ι ρ} {G : σ → ι → Prop}
    (hstep : ∀ s a, G s a → M.step s a = N.step s a) {s : σ} {as : List ι} (h : M.Admits G s as) :
    M.replies s as = N.replies s as ∧ M.run s as = N.run s as := by
  induction as generalizing s with
  | nil => exact ⟨rfl, rfl⟩
  | cons a as ih =>
    obtain ⟨ha, has⟩ := h
    have hreply : M.reply s a = N.reply s a := congrArg Prod.snd (hstep s a ha)
    have hnext : M.next s a = N.next s a := congrArg Prod.fst (hstep s a ha)
    obtain ⟨hreplies, hrun⟩ := ih has
    simp only [replies, run_cons, hreply, ← hnext]
    exact ⟨by rw [hreplies], hrun⟩

end Machine

end Infra
