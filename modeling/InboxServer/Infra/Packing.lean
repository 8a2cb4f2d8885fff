import Mathlib

/-!
# Packing a list into batches

A list is cut into batches that hold so many items, and so much weight. A batch is closed when the
next item does not fit into it.

* `flatten_pack` — nothing is lost, and nothing is moved
* `bounded_of_mem_pack` — no batch is empty or overfull
* `pack_tight` — no two batches that stand side by side fit into one
-/

namespace Infra

variable {α : Type*} (weight : α → Nat) (maxLength capacity : Nat)

/-- What a batch weighs. -/
def totalWeight (batch : List α) : Nat := (batch.map weight).sum

/-- The batches of a list, the first of which already holds `batch`. -/
def pack (batch : List α) : List α → List (List α)
  | [] => if batch = [] then [] else [batch]
  | a :: rest =>
    if batch.length = maxLength ∨ totalWeight weight batch + weight a > capacity then
      batch :: pack [a] rest
    else pack (batch ++ [a]) rest

/-- A batch that may be sent. -/
structure Bounded (batch : List α) : Prop where
  ne_nil : batch ≠ []
  length_le : batch.length ≤ maxLength
  weight_le : totalWeight weight batch ≤ capacity

/-- Two batches that do not fit into one. -/
def Apart (first second : List α) : Prop :=
  maxLength < first.length + second.length ∨
    capacity < totalWeight weight first + totalWeight weight second

variable {weight maxLength capacity}

@[simp] theorem totalWeight_append (first second : List α) :
    totalWeight weight (first ++ second) = totalWeight weight first + totalWeight weight second := by
  simp [totalWeight]

@[simp] theorem totalWeight_singleton (a : α) : totalWeight weight [a] = weight a := by
  simp [totalWeight]

theorem flatten_pack (batch items : List α) :
    (pack weight maxLength capacity batch items).flatten = batch ++ items := by
  induction items generalizing batch with
  | nil =>
    unfold pack
    split
    · next hempty => simp [hempty]
    · simp
  | cons a rest ih =>
    unfold pack
    split
    · rw [List.flatten_cons, ih]
      rfl
    · rw [ih, List.append_assoc]
      rfl

/-- What the batch holds already: nothing yet, or what may be sent. -/
def Growing (weight : α → Nat) (maxLength capacity : Nat) (batch : List α) : Prop :=
  batch.length ≤ maxLength ∧ totalWeight weight batch ≤ capacity

theorem bounded_of_mem_pack (hmax : 0 < maxLength) {batch items : List α}
    (hbatch : Growing weight maxLength capacity batch) (hitems : ∀ a ∈ items, weight a ≤ capacity)
    {b : List α} (hb : b ∈ pack weight maxLength capacity batch items) :
    Bounded weight maxLength capacity b := by
  induction items generalizing batch with
  | nil =>
    unfold pack at hb
    split at hb
    · cases hb
    · next hne =>
      rw [List.mem_singleton.mp hb]
      exact ⟨hne, hbatch.1, hbatch.2⟩
  | cons a rest ih =>
    rw [List.forall_mem_cons] at hitems
    unfold pack at hb
    split at hb
    · next hfull =>
      rcases List.mem_cons.mp hb with rfl | hrest
      · refine ⟨?_, hbatch.1, hbatch.2⟩
        -- the first item always fits
        rintro rfl
        rcases hfull with hlength | hweight
        · exact absurd hlength hmax.ne
        · exact absurd hweight (by simpa [totalWeight] using hitems.1)
      · exact ih ⟨by rw [List.length_singleton]; exact hmax, by rw [totalWeight_singleton]; exact hitems.1⟩ hitems.2 hrest
    · next hroom =>
      rw [not_or] at hroom
      refine ih ⟨?_, ?_⟩ hitems.2 hb
      · have hlength := hbatch.1
        rw [List.length_append, List.length_singleton]
        omega
      · rw [totalWeight_append, totalWeight_singleton]
        omega

/-- The first batch begins with what was there already. -/
theorem prefix_of_pack {batch items : List α} {first : List α} {rest : List (List α)}
    (h : pack weight maxLength capacity batch items = first :: rest) : batch <+: first := by
  induction items generalizing batch with
  | nil =>
    unfold pack at h
    split at h
    · cases h
    · rw [(List.cons.inj h).1]
  | cons a items ih =>
    unfold pack at h
    split at h
    · rw [(List.cons.inj h).1]
    · exact (List.prefix_append batch [a]).trans (ih h)

theorem pack_tight (batch items : List α) :
    (pack weight maxLength capacity batch items).IsChain (Apart weight maxLength capacity) := by
  induction items generalizing batch with
  | nil =>
    unfold pack
    split <;> simp
  | cons a rest ih =>
    unfold pack
    split
    · next hfull =>
      cases hrest : pack weight maxLength capacity [a] rest with
      | nil => exact List.isChain_singleton _
      | cons second others =>
        have hchain := ih [a]
        rw [hrest] at hchain
        refine List.isChain_cons_cons.mpr ⟨?_, hchain⟩
        obtain ⟨tail, rfl⟩ := prefix_of_pack hrest
        rcases hfull with hlength | hweight
        · left
          simp [hlength]
        · right
          rw [totalWeight_append, totalWeight_singleton]
          omega
    · exact ih _

end Infra
