import Mathlib

/-!
# Results that may be errors

* `bind_ok` — a sequence returns if its parts do
* `mapM_ok` — what is made of each item of a list
* `Agree` — two results that both return, with related values, or both are errors
-/

namespace Infra.Throwing

variable {ε α β γ δ : Type}

theorem bind_ok {x : Except ε α} {f : α → Except ε β} {b : β} :
    x >>= f = .ok b ↔ ∃ a, x = .ok a ∧ f a = .ok b := by
  rcases x with e | a
  · exact ⟨nofun, nofun⟩
  · exact ⟨fun h => ⟨a, rfl, h⟩, fun ⟨_, ha, h⟩ => by cases ha; exact h⟩

theorem map_ok {x : Except ε α} {f : α → β} {b : β} :
    x.map f = .ok b ↔ ∃ a, x = .ok a ∧ f a = b := by
  rcases x with e | a
  · exact ⟨nofun, nofun⟩
  · exact ⟨fun h => ⟨a, rfl, Except.ok.inj h⟩, fun ⟨_, ha, h⟩ => by cases ha; rw [← h]; rfl⟩

theorem mapM_ok {f : α → Except ε β} {as : List α} {bs : List β} (h : as.mapM f = .ok bs) :
    List.Forall₂ (fun a b => f a = .ok b) as bs := by
  induction as generalizing bs with
  | nil =>
    cases h
    exact .nil
  | cons a as ih =>
    rw [List.mapM_cons] at h
    obtain ⟨b, hb, h⟩ := bind_ok.mp h
    obtain ⟨rest, hrest, h⟩ := bind_ok.mp h
    cases h
    exact .cons hb (ih hrest)

theorem exists_of_mem_mapM {f : α → Except ε β} {as : List α} {bs : List β} (h : as.mapM f = .ok bs)
    {b : β} (hb : b ∈ bs) : ∃ a ∈ as, f a = .ok b := by
  have hall := mapM_ok h
  clear h
  induction hall with
  | nil => cases hb
  | cons hhead _ ih =>
    rcases List.mem_cons.mp hb with rfl | hb
    · exact ⟨_, List.mem_cons_self, hhead⟩
    · obtain ⟨a, ha, hab⟩ := ih hb
      exact ⟨a, List.mem_cons_of_mem _ ha, hab⟩

/-- The same items by two functions that make related things of each. -/
theorem mapM_rel {f : α → Except ε β} {g : α → Except ε γ} {R : β → γ → Prop}
    (hfg : ∀ a b c, f a = .ok b → g a = .ok c → R b c) {as : List α} {bs : List β} {cs : List γ}
    (hf : as.mapM f = .ok bs) (hg : as.mapM g = .ok cs) : List.Forall₂ R bs cs := by
  have hleft := mapM_ok hf
  have hright := mapM_ok hg
  clear hf hg
  induction hleft generalizing cs with
  | nil =>
    cases hright
    exact .nil
  | cons hhead _ ih =>
    cases hright with
    | cons hhead' hrest => exact .cons (hfg _ _ _ hhead hhead') (ih hrest)

/-- Two results that both return, with related values, or both are errors. -/
inductive Agree (R : α → β → Prop) : Except ε α → Except ε β → Prop where
  | ok {a : α} {b : β} (h : R a b) : Agree R (.ok a) (.ok b)
  | error (e e' : ε) : Agree R (.error e) (.error e')

theorem Agree.of_eq {x y : Except ε α} (h : x = y) : Agree Eq x y := by
  subst h
  cases x with
  | error e => exact .error e e
  | ok a => exact .ok rfl

theorem Agree.bind {R : α → β → Prop} {S : γ → δ → Prop} {x : Except ε α} {y : Except ε β}
    {f : α → Except ε γ} {g : β → Except ε δ} (h : Agree R x y)
    (hf : ∀ a b, R a b → Agree S (f a) (g b)) : Agree S (x >>= f) (y >>= g) := by
  cases h with
  | ok h => exact hf _ _ h
  | error e e' => exact .error e e'

theorem Agree.mono {R S : α → β → Prop} {x : Except ε α} {y : Except ε β} (h : Agree R x y)
    (hRS : ∀ a b, R a b → S a b) : Agree S x y := by
  cases h with
  | ok h => exact .ok (hRS _ _ h)
  | error e e' => exact .error e e'

theorem Agree.of_ok_iff {x y : Except ε Unit} (h : x = .ok () ↔ y = .ok ()) : Agree Eq x y := by
  rcases x with e | ⟨⟩ <;> rcases y with e' | ⟨⟩
  · exact .error e e'
  · exact absurd (h.mpr rfl) (by simp)
  · exact absurd (h.mp rfl) (by simp)
  · exact .ok rfl

theorem Agree.eq_ok {x : Except ε α} {a : α} (h : Agree Eq x (.ok a)) : x = .ok a := by
  cases h with
  | ok h => rw [h]

end Infra.Throwing
