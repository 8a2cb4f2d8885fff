import Mathlib

/-!
# First occurrences

`firstBy key seen l` keeps the items of `l` whose key is not in `seen` and is that of no item before
them. What an order of arrival leaves of repeated items is told by it.
-/

namespace Infra

variable {α κ : Type*} [DecidableEq κ] {key : α → κ}

/-- The first item of each key that is not among the given ones, in order. -/
def firstBy (key : α → κ) : List κ → List α → List α
  | _, [] => []
  | seen, x :: l =>
    if key x ∈ seen then firstBy key seen l else x :: firstBy key (key x :: seen) l

@[simp] theorem firstBy_nil (seen : List κ) : firstBy key seen [] = [] := rfl

theorem firstBy_cons_mem {seen : List κ} {x : α} {l : List α} (h : key x ∈ seen) :
    firstBy key seen (x :: l) = firstBy key seen l := if_pos h

theorem firstBy_cons_not_mem {seen : List κ} {x : α} {l : List α} (h : key x ∉ seen) :
    firstBy key seen (x :: l) = x :: firstBy key (key x :: seen) l := if_neg h

/-- Only which keys are seen counts. -/
theorem firstBy_congr {seen seen' : List κ} (h : ∀ k, k ∈ seen ↔ k ∈ seen') (l : List α) :
    firstBy key seen l = firstBy key seen' l := by
  induction l generalizing seen seen' with
  | nil => rfl
  | cons x l ih =>
    by_cases hx : key x ∈ seen
    · rw [firstBy_cons_mem hx, firstBy_cons_mem ((h _).mp hx), ih h]
    · rw [firstBy_cons_not_mem hx, firstBy_cons_not_mem (mt (h _).mpr hx)]
      congr 1
      refine ih fun k => ?_
      rw [List.mem_cons, List.mem_cons, h]

theorem firstBy_append (seen : List κ) (l l' : List α) :
    firstBy key seen (l ++ l') = firstBy key seen l ++ firstBy key (seen ++ l.map key) l' := by
  induction l generalizing seen with
  | nil => simp
  | cons x l ih =>
    by_cases hx : key x ∈ seen
    · rw [List.cons_append, firstBy_cons_mem hx, firstBy_cons_mem hx, ih]
      congr 1
      refine firstBy_congr (fun k => ?_) l'
      simp only [List.map_cons, List.mem_append, List.mem_cons]
      constructor
      · rintro (hk | hk)
        · exact Or.inl hk
        · exact Or.inr (Or.inr hk)
      · rintro (hk | rfl | hk)
        · exact Or.inl hk
        · exact Or.inl hx
        · exact Or.inr hk
    · rw [List.cons_append, firstBy_cons_not_mem hx, firstBy_cons_not_mem hx, ih, List.cons_append]
      congr 2
      refine firstBy_congr (fun k => ?_) l'
      simp only [List.map_cons, List.mem_append, List.mem_cons]
      tauto

theorem firstBy_eq_nil_iff {seen : List κ} {l : List α} :
    firstBy key seen l = [] ↔ ∀ x ∈ l, key x ∈ seen := by
  induction l with
  | nil => simp
  | cons x l ih =>
    by_cases hx : key x ∈ seen
    · rw [firstBy_cons_mem hx, ih, List.forall_mem_cons]
      exact ⟨fun h => ⟨hx, h⟩, fun h => h.2⟩
    · rw [firstBy_cons_not_mem hx]
      exact ⟨fun h => (by cases h), fun h => absurd (h x List.mem_cons_self) hx⟩

theorem firstBy_sublist (seen : List κ) (l : List α) : (firstBy key seen l).Sublist l := by
  induction l generalizing seen with
  | nil => exact List.Sublist.refl []
  | cons x l ih =>
    by_cases hx : key x ∈ seen
    · rw [firstBy_cons_mem hx]
      exact (ih seen).cons x
    · rw [firstBy_cons_not_mem hx]
      exact (ih _).cons_cons x

theorem mem_map_firstBy {seen : List κ} {l : List α} {k : κ} :
    k ∈ (firstBy key seen l).map key ↔ k ∈ l.map key ∧ k ∉ seen := by
  induction l generalizing seen with
  | nil => simp
  | cons x l ih =>
    by_cases hx : key x ∈ seen
    · rw [firstBy_cons_mem hx, ih, List.map_cons, List.mem_cons]
      constructor
      · rintro ⟨hk, hseen⟩
        exact ⟨Or.inr hk, hseen⟩
      · rintro ⟨rfl | hk, hseen⟩
        · exact absurd hx hseen
        · exact ⟨hk, hseen⟩
    · rw [firstBy_cons_not_mem hx, List.map_cons, List.mem_cons, ih, List.map_cons, List.mem_cons]
      by_cases hk : k = key x
      · simp [hk, hx]
      · simp [hk]

end Infra
