import InboxServer.Infra.Prog

/-!
# Runs of one program

A run of a program by itself is the list of its calls with the answers that they got. Nothing is
said about who answers, so a run is one of a program in any environment.

* `Prog.runs_bind` — a run of a sequence is a run of each part, one after the other
* `Prog.Runs.obeys` — a program that follows a protocol keeps to it in each of its runs
-/

namespace Infra

universe u v w

/-- A call and the answer to it. -/
abbrev Event (C : Type u) (R : C → Type v) := (c : C) × R c

namespace Prog

variable {C : Type u} {R : C → Type v} {α β : Type w}

/-- The program makes the calls of the trace, and ends with the result. -/
inductive Runs : Prog C R α → List (Event C R) → α → Prop
  | ret (a : α) : Runs (.ret a) [] a
  | call {c : C} {k : R c → Prog C R α} {r : R c} {trace : List (Event C R)} {a : α}
      (rest : Runs (k r) trace a) : Runs (.call c k) (⟨c, r⟩ :: trace) a

theorem runs_ret {a b : α} {trace : List (Event C R)} :
    (ret a : Prog C R α).Runs trace b ↔ trace = [] ∧ b = a := by
  constructor
  · intro h
    cases h
    exact ⟨rfl, rfl⟩
  · rintro ⟨rfl, rfl⟩
    exact .ret b

theorem runs_call {c : C} {k : R c → Prog C R α} {trace : List (Event C R)} {a : α} :
    (call c k).Runs trace a ↔ ∃ r rest, trace = ⟨c, r⟩ :: rest ∧ (k r).Runs rest a := by
  constructor
  · intro h
    cases h with
    | call rest => exact ⟨_, _, rfl, rest⟩
  · rintro ⟨r, rest, rfl, h⟩
    exact .call h

theorem Runs.bind {p : Prog C R α} {f : α → Prog C R β} {first second : List (Event C R)} {a : α}
    {b : β} (hp : p.Runs first a) (hf : (f a).Runs second b) :
    (p >>= f).Runs (first ++ second) b := by
  induction hp with
  | ret a => exact hf
  | call rest ih => exact .call (ih hf)

theorem runs_bind {p : Prog C R α} {f : α → Prog C R β} {trace : List (Event C R)} {b : β} :
    (p >>= f).Runs trace b ↔
      ∃ first second a, trace = first ++ second ∧ p.Runs first a ∧ (f a).Runs second b := by
  constructor
  · intro h
    induction p generalizing trace with
    | ret a => exact ⟨[], trace, a, rfl, .ret a, h⟩
    | call c k ih =>
      rw [call_bind, runs_call] at h
      obtain ⟨r, rest, rfl, hrest⟩ := h
      obtain ⟨first, second, a, rfl, hfirst, hsecond⟩ := ih r hrest
      exact ⟨⟨c, r⟩ :: first, second, a, rfl, .call hfirst, hsecond⟩
  · rintro ⟨first, second, a, rfl, hp, hf⟩
    exact hp.bind hf

/-- Once a part has run, the rest of the run is one of what comes after it. -/
theorem Runs.rest {p : Prog C R α} {f : α → Prog C R β} {first rest : List (Event C R)} {a : α}
    {b : β} (hp : p.Runs first a) (h : (p >>= f).Runs (first ++ rest) b) : (f a).Runs rest b := by
  induction hp with
  | ret a => exact h
  | call _ ih =>
    obtain ⟨r', rest', heq, hrest⟩ := runs_call.mp h
    cases heq
    exact ih hrest

/-- The call that the program makes next. -/
def call? : Prog C R α → Option C
  | ret _ => none
  | call c _ => some c

/-- The result of the run with the given trace, if that is a run. -/
def replay [DecidableEq C] : Prog C R α → List (Event C R) → Option α
  | ret a, [] => some a
  | ret _, _ :: _ => none
  | call _ _, [] => none
  | call c k, ⟨c', r⟩ :: trace => if h : c' = c then replay (k (h ▸ r)) trace else none

theorem runs_of_replay [DecidableEq C] {p : Prog C R α} {trace : List (Event C R)} {a : α}
    (h : p.replay trace = some a) : p.Runs trace a := by
  induction p generalizing trace with
  | ret b =>
    cases trace with
    | nil => rw [← Option.some.inj h]; exact .ret b
    | cons e trace => cases h
  | call c k ih =>
    rcases trace with _ | ⟨⟨c', r⟩, trace⟩
    · cases h
    · rw [replay] at h
      split at h
      · next hc =>
        subst hc
        exact .call (ih r h)
      · cases h

/-- The run in which every call gets the answer that is fixed for it. -/
def answered (answer : (c : C) → R c) : Prog C R α → List (Event C R) × α
  | ret a => ([], a)
  | call c k =>
    (⟨c, answer c⟩ :: (answered answer (k (answer c))).1, (answered answer (k (answer c))).2)

theorem runs_answered (answer : (c : C) → R c) (p : Prog C R α) :
    p.Runs (p.answered answer).1 (p.answered answer).2 := by
  induction p with
  | ret a => exact .ret a
  | call c k ih => exact .call (ih _)

/-- Its calls have the answers that are fixed. -/
theorem answer_of_mem_answered {answer : (c : C) → R c} {p : Prog C R α} {e : Event C R}
    (h : e ∈ (p.answered answer).1) : e.2 = answer e.1 := by
  induction p with
  | ret a => cases h
  | call c k ih =>
    rcases List.mem_cons.mp h with rfl | h
    · rfl
    · exact ih _ h

end Prog

namespace Protocol

variable {C : Type u} {R : C → Type v} {γ : Type*} (P : Protocol C R γ)

/-- The ghost state after a trace. -/
def after (g : γ) (trace : List (Event C R)) : γ := trace.foldl (fun g e => P.post g e.1 e.2) g

@[simp] theorem after_nil (g : γ) : P.after g [] = g := rfl

@[simp] theorem after_cons (g : γ) (e : Event C R) (trace : List (Event C R)) :
    P.after g (e :: trace) = P.after (P.post g e.1 e.2) trace := rfl

theorem after_append (g : γ) (first second : List (Event C R)) :
    P.after g (first ++ second) = P.after (P.after g first) second := List.foldl_append

@[simp] theorem after_snoc (g : γ) (trace : List (Event C R)) (e : Event C R) :
    P.after g (trace ++ [e]) = P.post (P.after g trace) e.1 e.2 := by
  rw [after_append]
  rfl

/-- Every call of the trace is permitted where it is made. -/
def Obeys : γ → List (Event C R) → Prop
  | _, [] => True
  | g, e :: trace => P.pre g e.1 ∧ Obeys (P.post g e.1 e.2) trace

variable {P}

theorem obeys_append {g : γ} {first second : List (Event C R)} :
    P.Obeys g (first ++ second) ↔ P.Obeys g first ∧ P.Obeys (P.after g first) second := by
  induction first generalizing g with
  | nil => simp [Obeys]
  | cons e first ih => simp only [List.cons_append, Obeys, ih, after_cons, and_assoc]

theorem obeys_snoc {g : γ} {trace : List (Event C R)} {e : Event C R} :
    P.Obeys g (trace ++ [e]) ↔ P.Obeys g trace ∧ P.pre (P.after g trace) e.1 := by
  rw [obeys_append]
  simp [Obeys]

/-- A call of an obedient trace is permitted by what went before it. -/
theorem Obeys.at {g : γ} {before rest : List (Event C R)} {e : Event C R}
    (h : P.Obeys g (before ++ e :: rest)) : P.pre (P.after g before) e.1 :=
  (obeys_append.mp h).2.1

end Protocol

namespace Prog

variable {C : Type u} {R : C → Type v} {α : Type w} {γ : Type*} {P : Protocol C R γ}

/-- **A program that follows a protocol keeps to it in each of its runs.** -/
theorem Runs.obeys {Q : γ → α → Prop} {p : Prog C R α} {trace : List (Event C R)} {a : α} {g : γ}
    (h : p.Runs trace a) (hp : Follows P Q g p) (hrely : ∀ e ∈ trace, P.rely e.1 e.2) :
    P.Obeys g trace ∧ Q (P.after g trace) a := by
  induction h generalizing g with
  | ret a => exact ⟨trivial, hp⟩
  | call rest ih =>
    obtain ⟨hpre, hk⟩ := hp
    have hfirst := hk _ (hrely _ List.mem_cons_self)
    obtain ⟨hobeys, hend⟩ := ih hfirst fun e he => hrely e (List.mem_cons_of_mem _ he)
    exact ⟨⟨hpre, hobeys⟩, hend⟩

/-! ## Programs that may throw -/

variable {ε : Type w} {β : Type w}

/-- `p`, then `f` on what it returns; what `p` throws is thrown on. -/
def andThen (p : Prog C R (Except ε α)) (f : α → Prog C R (Except ε β)) :
    Prog C R (Except ε β) :=
  p >>= fun
    | .ok a => f a
    | .error e => .ret (.error e)

@[simp] theorem ret_ok_andThen (a : α) (f : α → Prog C R (Except ε β)) :
    (ret (.ok a) : Prog C R (Except ε α)).andThen f = f a := rfl

@[simp] theorem ret_error_andThen (e : ε) (f : α → Prog C R (Except ε β)) :
    (ret (.error e) : Prog C R (Except ε α)).andThen f = ret (.error e) := rfl

@[simp] theorem call_andThen (c : C) (k : R c → Prog C R (Except ε α))
    (f : α → Prog C R (Except ε β)) :
    (call c k).andThen f = call c fun r => (k r).andThen f := rfl

theorem exec_andThen {σ : Type*} (serve : σ → (c : C) → σ × R c) (p : Prog C R (Except ε α))
    (f : α → Prog C R (Except ε β)) (s : σ) :
    (p.andThen f).exec serve s =
      match (p.exec serve s).2 with
      | .ok a => (f a).exec serve (p.exec serve s).1
      | .error e => ((p.exec serve s).1, .error e) := by
  rw [show p.andThen f = p.bind _ from rfl, exec_bind]
  cases (p.exec serve s).2 <;> rfl

theorem answered_andThen (answer : (c : C) → R c) {p : Prog C R (Except ε α)}
    {f : α → Prog C R (Except ε β)} {a : α} (h : (p.answered answer).2 = .ok a) :
    (p.andThen f).answered answer =
      ((p.answered answer).1 ++ ((f a).answered answer).1, ((f a).answered answer).2) := by
  induction p with
  | ret b =>
    obtain rfl : b = .ok a := h
    rfl
  | call c k ih =>
    rw [call_andThen, answered, ih _ h]
    rfl

/-- What comes after a part does not change its trace. -/
theorem prefix_answered (answer : (c : C) → R c) (p : Prog C R (Except ε α))
    (f : α → Prog C R (Except ε β)) :
    (p.answered answer).1 <+: ((p.andThen f).answered answer).1 := by
  induction p with
  | ret a => exact List.nil_prefix
  | call c k ih =>
    rw [call_andThen, answered]
    exact List.cons_prefix_cons.mpr ⟨rfl, ih _⟩

theorem runs_andThen {p : Prog C R (Except ε α)} {f : α → Prog C R (Except ε β)}
    {trace : List (Event C R)} {b : Except ε β} :
    (p.andThen f).Runs trace b ↔
      (∃ first second a, trace = first ++ second ∧ p.Runs first (.ok a) ∧ (f a).Runs second b) ∨
        ∃ e, p.Runs trace (.error e) ∧ b = .error e := by
  unfold andThen
  rw [runs_bind]
  constructor
  · rintro ⟨first, second, a, rfl, hp, hf⟩
    cases a with
    | ok a => exact Or.inl ⟨first, second, a, rfl, hp, hf⟩
    | error e =>
      obtain ⟨rfl, rfl⟩ := runs_ret.mp hf
      exact Or.inr ⟨e, by simpa using hp, rfl⟩
  · rintro (⟨first, second, a, rfl, hp, hf⟩ | ⟨e, hp, rfl⟩)
    · exact ⟨first, second, .ok a, rfl, hp, hf⟩
    · exact ⟨trace, [], .error e, by simp, hp, .ret _⟩

/-- The rule of sequencing for programs that may throw. -/
theorem Follows.andThen {Q : γ → Except ε β → Prop} {p : Prog C R (Except ε α)}
    {f : α → Prog C R (Except ε β)} {Q' : γ → Except ε α → Prop} {g : γ}
    (h : Follows P Q' g p) (hok : ∀ g a, Q' g (.ok a) → Follows P Q g (f a))
    (herror : ∀ g e, Q' g (.error e) → Q g (.error e)) : Follows P Q g (p.andThen f) := by
  refine Follows.bind (h.mono fun g a ha => ?_)
  cases a with
  | ok a => exact hok g a ha
  | error e => exact herror g e ha

end Prog

end Infra
