import Mathlib

/-!
# Tables with unique constraints

A table is a list of rows no two of which conflict: the unique constraints of a database table,
carried by the type, so that a statement that would break one has no table to return.

* `Table.insert?` — a plain `INSERT`, which fails on a conflict
* `Table.update` / `Table.update?` — an `UPDATE` that can break no constraint, and one that fails
  where it would
* `Table.lookup` — the row with a given value of a unique column
* `Table.lookup_update`, `Table.lookup_insert?`, `Table.lookup_delete` — what each statement does
  to the row with a given key, which is all that the proofs above a table use
-/

namespace Infra

universe u v

/-- The unique constraints of a kind of row, as the pairs of rows that they keep apart. -/
class Constrained (α : Type u) where
  conflict : α → α → Bool
  conflict_comm : ∀ a b, conflict a b = conflict b a

open Constrained

/-- The rows of a table, no two of them in conflict. -/
structure Table (α : Type u) [Constrained α] where
  rows : List α
  unique : rows.Pairwise fun a b => conflict a b = false

namespace Table

variable {α : Type u} [Constrained α] {κ : Type v} [DecidableEq κ]

instance : Membership α (Table α) := ⟨fun t a => a ∈ t.rows⟩

theorem mem_rows {t : Table α} {a : α} : a ∈ t.rows ↔ a ∈ t := Iff.rfl

@[ext] theorem ext {t t' : Table α} (h : t.rows = t'.rows) : t = t' := by
  cases t; cases t'; cases h; rfl

instance [DecidableEq α] : DecidableEq (Table α) := fun _ _ => decidable_of_iff _ Table.ext_iff.symm

/-- The table without rows. -/
def empty : Table α := ⟨[], List.Pairwise.nil⟩

instance : EmptyCollection (Table α) := ⟨empty⟩

@[simp] theorem rows_empty : (∅ : Table α).rows = [] := rfl

@[simp] theorem not_mem_empty {a : α} : a ∉ (∅ : Table α) := List.not_mem_nil

/-- Two rows of a table that conflict are one row. -/
theorem eq_of_conflict {t : Table α} {a b : α} (ha : a ∈ t) (hb : b ∈ t)
    (h : conflict a b = true) : a = b := by
  by_contra hne
  have hsymm : Std.Symm fun x y : α => conflict x y = false :=
    { symm := fun x y hxy => by rw [conflict_comm]; exact hxy }
  have hab := t.unique.forall ha hb hne
  rw [h] at hab
  exact Bool.noConfusion hab

/-! ## Statements -/

/-- `INSERT`: the row goes to the end, and a conflict with a row that is there fails. -/
def insert? (t : Table α) (r : α) : Option (Table α) :=
  if h : ∀ a ∈ t.rows, conflict a r = false then
    some ⟨t.rows ++ [r], List.pairwise_append.mpr
      ⟨t.unique, List.pairwise_singleton _ _, fun a ha b hb => by
        rw [List.mem_singleton.mp hb]; exact h a ha⟩⟩
  else none

/-- `INSERT ... ON CONFLICT (target) DO NOTHING`, for the rows that `target` says are met there. -/
def insertUnless? (t : Table α) (target : α → Bool) (r : α) : Option (Table α) :=
  if t.rows.any target then some t else t.insert? r

/-- A change of a row that brings it in conflict with nothing new. -/
class AddsNoConflict (f : α → α) : Prop where
  conflict_of : ∀ a b, conflict (f a) b = true → conflict a b = true

theorem conflict_of_ite {f : α → α} [AddsNoConflict f] (p : α → Bool) {a b : α}
    (h : conflict (if p a then f a else a) b = true) : conflict a b = true := by
  cases hp : p a with
  | true => exact AddsNoConflict.conflict_of a b (by simpa [hp] using h)
  | false => simpa [hp] using h

/-- `UPDATE ... WHERE p`, for a change after which no constraint can be broken. -/
def update (t : Table α) (p : α → Bool) (f : α → α) [AddsNoConflict f] : Table α :=
  ⟨t.rows.map fun a => if p a then f a else a, by
    rw [List.pairwise_map]
    refine t.unique.imp fun {a b} hab => ?_
    rw [Bool.eq_false_iff] at hab ⊢
    intro h
    have h1 := conflict_of_ite p h
    rw [conflict_comm] at h1
    have h2 := conflict_of_ite p h1
    rw [conflict_comm] at h2
    exact hab h2⟩

/-- `UPDATE ... WHERE p`, which fails when the changed rows break a constraint. -/
def update? (t : Table α) (p : α → Bool) (f : α → α) : Option (Table α) :=
  if h : (t.rows.map fun a => if p a then f a else a).Pairwise fun a b => conflict a b = false then
    some ⟨_, h⟩
  else none

/-- `INSERT ... ON CONFLICT DO UPDATE`: where `r` meets a row, that row is changed instead. -/
def upsert (t : Table α) (r : α) (f : α → α) [AddsNoConflict f] : Table α :=
  (t.insert? r).getD (t.update (fun a => conflict a r) f)

/-- `DELETE ... WHERE p`. -/
def delete (t : Table α) (p : α → Bool) : Table α :=
  ⟨t.rows.filter fun a => !p a, t.unique.filter _⟩

/-- The first row with the value `k` in a column. -/
def lookup (t : Table α) (key : α → κ) (k : κ) : Option α :=
  t.rows.find? fun a => decide (key a = k)

/-! ## Membership -/

theorem insert?_eq_some {t t' : Table α} {r : α} (h : t.insert? r = some t') :
    t'.rows = t.rows ++ [r] ∧ ∀ a ∈ t, conflict a r = false := by
  unfold insert? at h
  split at h
  · next hc => rw [← Option.some.inj h]; exact ⟨rfl, hc⟩
  · simp at h

theorem insert?_isSome {t : Table α} {r : α} (h : ∀ a ∈ t, conflict a r = false) :
    ∃ t', t.insert? r = some t' := by
  have hrows : ∀ a ∈ t.rows, conflict a r = false := h
  exact ⟨_, dif_pos hrows⟩

theorem mem_insert? {t t' : Table α} {r a : α} (h : t.insert? r = some t') :
    a ∈ t' ↔ a ∈ t ∨ a = r := by
  rw [← mem_rows, (insert?_eq_some h).1, List.mem_append, List.mem_singleton, mem_rows]

theorem mem_insertUnless? {t t' : Table α} {target : α → Bool} {r a : α}
    (h : t.insertUnless? target r = some t') : a ∈ t' → a ∈ t ∨ a = r := by
  unfold insertUnless? at h
  split at h
  · rw [← Option.some.inj h]; exact Or.inl
  · exact (mem_insert? h).mp

theorem mem_update {t : Table α} {p : α → Bool} {f : α → α} [AddsNoConflict f] {a : α} :
    a ∈ t.update p f ↔ ∃ b ∈ t, (if p b then f b else b) = a := List.mem_map

theorem update?_rows {t t' : Table α} {p : α → Bool} {f : α → α} (h : t.update? p f = some t') :
    t'.rows = t.rows.map fun a => if p a then f a else a := by
  unfold update? at h
  split at h
  · rw [← Option.some.inj h]
  · simp at h

theorem mem_update? {t t' : Table α} {p : α → Bool} {f : α → α} (h : t.update? p f = some t')
    {a : α} : a ∈ t' ↔ ∃ b ∈ t, (if p b then f b else b) = a := by
  rw [← mem_rows, update?_rows h, List.mem_map]
  rfl

/-- A change that keeps apart what is apart breaks no constraint. -/
theorem update?_isSome {t : Table α} {p : α → Bool} {f : α → α}
    (h : ∀ a ∈ t, ∀ b ∈ t, conflict a b = false →
      conflict (if p a then f a else a) (if p b then f b else b) = false) :
    ∃ t', t.update? p f = some t' := by
  have hpairs : (t.rows.map fun a => if p a then f a else a).Pairwise
      fun a b => conflict a b = false :=
    List.pairwise_map.mpr (t.unique.imp_of_mem fun ha hb hab => h _ ha _ hb hab)
  exact ⟨_, dif_pos hpairs⟩

theorem mem_update_of_not {t : Table α} {p : α → Bool} {f : α → α} [AddsNoConflict f] {a : α}
    (ha : a ∈ t) (hp : p a = false) : a ∈ t.update p f :=
  mem_update.mpr ⟨a, ha, by rw [hp]; rfl⟩

theorem mem_update_of {t : Table α} {p : α → Bool} {f : α → α} [AddsNoConflict f] {a : α}
    (ha : a ∈ t) (hp : p a = true) : f a ∈ t.update p f :=
  mem_update.mpr ⟨a, ha, by rw [hp]; rfl⟩

/-- Two changes that agree on the rows that are met are one. -/
theorem update_congr {t : Table α} {p : α → Bool} {f g : α → α} [AddsNoConflict f]
    [AddsNoConflict g] (h : ∀ a ∈ t, p a = true → f a = g a) :
    t.update p f = t.update p g := by
  refine Table.ext (List.map_congr_left fun a ha => ?_)
  cases hp : p a with
  | true => simpa using h a ha hp
  | false => simp

theorem mem_update?_of_not {t t' : Table α} {p : α → Bool} {f : α → α}
    (h : t.update? p f = some t') {a : α} (ha : a ∈ t) (hp : p a = false) : a ∈ t' :=
  (mem_update? h).mpr ⟨a, ha, by rw [hp]; rfl⟩

/-- Changes that agree on the rows met make the same update. -/
theorem update?_congr {t : Table α} {p : α → Bool} {f g : α → α}
    (h : ∀ a ∈ t, p a = true → f a = g a) : t.update? p f = t.update? p g := by
  have hrows : (t.rows.map fun a => if p a then f a else a) =
      t.rows.map fun a => if p a then g a else a :=
    List.map_congr_left fun a ha => by
      cases hp : p a with
      | true => simpa using h a ha hp
      | false => simp
  unfold update?
  simp only [hrows]

theorem mem_delete {t : Table α} {p : α → Bool} {a : α} :
    a ∈ t.delete p ↔ a ∈ t ∧ p a = false := by
  rw [← mem_rows, delete, List.mem_filter, mem_rows, Bool.not_eq_true']

/-- `INSERT ... ON CONFLICT DO UPDATE` adds the row, or changes the rows that it meets. -/
theorem mem_upsert {t : Table α} {r : α} {f : α → α} [AddsNoConflict f] {a : α}
    (h : a ∈ t.upsert r f) : a ∈ t ∨ a = r ∨ ∃ b ∈ t, conflict b r = true ∧ a = f b := by
  unfold upsert at h
  cases hins : t.insert? r with
  | some t' =>
    rw [hins] at h
    exact ((mem_insert? hins).mp h).imp_right Or.inl
  | none =>
    rw [hins] at h
    obtain ⟨b, hb, hba⟩ := mem_update.mp h
    by_cases hc : conflict b r = true
    · rw [if_pos hc] at hba
      exact Or.inr (Or.inr ⟨b, hb, hc, hba.symm⟩)
    · rw [if_neg hc] at hba
      exact Or.inl (hba ▸ hb)

/-- `INSERT ... ON CONFLICT DO UPDATE` keeps a row, or changes it. -/
theorem exists_mem_upsert {t : Table α} {r : α} {f : α → α} [AddsNoConflict f] {a : α}
    (h : a ∈ t) : a ∈ t.upsert r f ∨ f a ∈ t.upsert r f := by
  unfold upsert
  cases hins : t.insert? r with
  | some t' => exact Or.inl ((mem_insert? hins).mpr (Or.inl h))
  | none =>
    cases hc : conflict a r with
    | true => exact Or.inr (mem_update_of h hc)
    | false => exact Or.inl (mem_update_of_not h hc)

/-! ## Lookups by a unique column -/

/-- Rows with equal values of the column conflict, so a value names at most one row. -/
def IsKey (key : α → κ) : Prop := ∀ a b : α, key a = key b → conflict a b = true

theorem lookup_mem {t : Table α} {key : α → κ} {k : κ} {a : α} (h : t.lookup key k = some a) :
    a ∈ t := List.mem_of_find?_eq_some h

theorem lookup_key {t : Table α} {key : α → κ} {k : κ} {a : α} (h : t.lookup key k = some a) :
    key a = k := by
  have := List.find?_some h
  simpa using this

theorem lookup_eq_none {t : Table α} {key : α → κ} {k : κ} :
    t.lookup key k = none ↔ ∀ a ∈ t, key a ≠ k := by
  unfold lookup
  rw [List.find?_eq_none]
  simp only [decide_eq_true_eq]
  rfl

/-- What is found under a key is the row that has it. -/
theorem lookup_eq_some {t : Table α} {key : α → κ} (hkey : IsKey key) {k : κ} {a : α} :
    t.lookup key k = some a ↔ a ∈ t ∧ key a = k := by
  constructor
  · exact fun h => ⟨lookup_mem h, lookup_key h⟩
  · rintro ⟨ha, hk⟩
    cases hl : t.lookup key k with
    | none => exact absurd hk (lookup_eq_none.mp hl a ha)
    | some b =>
      have hb : key b = key a := by rw [lookup_key hl, hk]
      rw [eq_of_conflict (lookup_mem hl) ha (hkey b a hb)]

@[simp] theorem lookup_empty {key : α → κ} {k : κ} : (∅ : Table α).lookup key k = none := rfl

/-- Where no row conflicts with the new one on any column, `INSERT` succeeds. -/
theorem insert?_of_lookup_eq_none {t : Table α} {key : α → κ} {r : α}
    (hkey : ∀ a, conflict a r = true → key a = key r) (h : t.lookup key (key r) = none) :
    ∃ t', t.insert? r = some t' :=
  insert?_isSome fun a ha => by
    rw [Bool.eq_false_iff]
    exact fun hc => lookup_eq_none.mp h a ha (hkey a hc)

/-- Where a row has the new one's value of a unique column, `INSERT` fails. -/
theorem insert?_of_lookup_eq_some {t : Table α} {key : α → κ} (hkey : IsKey key) {r a : α}
    (h : t.lookup key (key r) = some a) : t.insert? r = none := by
  cases hins : t.insert? r with
  | none => rfl
  | some t' =>
    have hfresh := (insert?_eq_some hins).2 a (lookup_mem h)
    rw [hkey a r (lookup_key h)] at hfresh
    exact Bool.noConfusion hfresh

/-- Under its key the new row is found, and under any other what was. -/
theorem lookup_insert? {t t' : Table α} {r : α} {key : α → κ} (hkey : IsKey key)
    (h : t.insert? r = some t') (k : κ) :
    t'.lookup key k = if key r = k then some r else t.lookup key k := by
  obtain ⟨hrows, hfresh⟩ := insert?_eq_some h
  unfold lookup
  rw [hrows, List.find?_append]
  split
  · next hk =>
    have hnone : t.rows.find? (fun a => decide (key a = k)) = none := by
      rw [List.find?_eq_none]
      intro a ha hak
      have hc := hkey a r (by rw [of_decide_eq_true hak, hk])
      rw [hfresh a ha] at hc
      exact Bool.noConfusion hc
    rw [hnone]
    simp [hk]
  · next hk => simp [hk]

omit [Constrained α] in
/-- A change that keeps the column `key` changes the row with a given value of it, or leaves it. -/
theorem find?_map_ite {l : List α} {key : α → κ} {p : α → Bool} {f : α → α}
    (hkey : ∀ a, key (f a) = key a) (k : κ) :
    (l.map fun a => if p a then f a else a).find? (fun a => decide (key a = k))
      = (l.find? fun a => decide (key a = k)).map fun a => if p a then f a else a := by
  rw [List.find?_map]
  congr 2
  funext a
  show decide (key (if p a then f a else a) = k) = decide (key a = k)
  cases p a with
  | true => simp [hkey]
  | false => simp

theorem lookup_update {t : Table α} {key : α → κ} {p : α → Bool} {f : α → α} [AddsNoConflict f]
    (hkey : ∀ a, key (f a) = key a) (k : κ) :
    (t.update p f).lookup key k = (t.lookup key k).map fun a => if p a then f a else a :=
  find?_map_ite hkey k

/-- An `UPDATE` of the row with a given value of a column touches the lookup of that value alone. -/
theorem lookup_update_key {t : Table α} {key : α → κ} {f : α → α} [AddsNoConflict f]
    (hkey : ∀ a, key (f a) = key a) (k' k : κ) :
    (t.update (fun a => decide (key a = k')) f).lookup key k =
      if k' = k then (t.lookup key k).map f else t.lookup key k := by
  rw [lookup_update hkey]
  cases hl : t.lookup key k with
  | none => simp
  | some a =>
    have ha := lookup_key hl
    by_cases hk : k' = k
    · simp [ha, hk]
    · simp [ha, hk, Ne.symm hk]

theorem lookup_update? {t t' : Table α} {key : α → κ} {p : α → Bool} {f : α → α}
    (h : t.update? p f = some t') (hkey : ∀ a, key (f a) = key a) (k : κ) :
    t'.lookup key k = (t.lookup key k).map fun a => if p a then f a else a := by
  unfold lookup
  rw [update?_rows h]
  exact find?_map_ite hkey k

/-- After an `INSERT ... ON CONFLICT (key) DO UPDATE`, the key has the new row or the changed one. -/
theorem lookup_upsert {t : Table α} {key : α → κ} {r : α} {f : α → α} [AddsNoConflict f]
    (hkey : ∀ a b, conflict a b = true ↔ key a = key b) (hf : ∀ a, key (f a) = key a) :
    (t.upsert r f).lookup key (key r) = some ((t.lookup key (key r)).elim r f) := by
  have hisKey : IsKey key := fun a b h => (hkey a b).mpr h
  unfold upsert
  cases hl : t.lookup key (key r) with
  | none =>
    obtain ⟨t', hins⟩ := insert?_of_lookup_eq_none (fun a => (hkey a r).mp) hl
    rw [hins, Option.getD_some, lookup_insert? hisKey hins, if_pos rfl]
    rfl
  | some a =>
    rw [insert?_of_lookup_eq_some hisKey hl, Option.getD_none, lookup_update hf, hl]
    simp [(hkey a r).mpr (lookup_key hl)]

/-- It leaves the rows of other keys as they are. -/
theorem lookup_upsert_of_ne {t : Table α} {key : α → κ} {r : α} {f : α → α} [AddsNoConflict f]
    (hkey : ∀ a b, conflict a b = true ↔ key a = key b) (hf : ∀ a, key (f a) = key a) {k : κ}
    (hne : key r ≠ k) : (t.upsert r f).lookup key k = t.lookup key k := by
  unfold upsert
  cases hins : t.insert? r with
  | some t' =>
    rw [Option.getD_some, lookup_insert? (fun a b h => (hkey a b).mpr h) hins, if_neg hne]
  | none =>
    rw [Option.getD_none, lookup_update hf]
    cases hl : t.lookup key k with
    | none => rfl
    | some a =>
      have hother : ¬ conflict a r = true := by
        rw [hkey, lookup_key hl]
        exact fun h => hne h.symm
      rw [Option.map_some, if_neg hother]

/-- A row that is deleted is found no more. -/
theorem lookup_delete {t : Table α} {key : α → κ} (hkey : IsKey key) {p : α → Bool} (k : κ) :
    (t.delete p).lookup key k = (t.lookup key k).filter fun a => !p a := by
  cases hl : t.lookup key k with
  | none =>
    rw [Option.filter_none, lookup_eq_none]
    exact fun a ha => lookup_eq_none.mp hl a (mem_delete.mp ha).1
  | some a =>
    cases hp : p a with
    | true =>
      rw [Option.filter_some_neg (by simp [hp]), lookup_eq_none]
      intro b hb hk
      obtain ⟨hbt, hpb⟩ := mem_delete.mp hb
      have hba : b = a := eq_of_conflict hbt (lookup_mem hl) (hkey b a (by rw [hk, lookup_key hl]))
      rw [hba, hp] at hpb
      exact Bool.noConfusion hpb
    | false =>
      rw [Option.filter_some_pos (by simp [hp]), lookup_eq_some hkey]
      exact ⟨mem_delete.mpr ⟨lookup_mem hl, hp⟩, lookup_key hl⟩

/-- A `WHERE` that fixes the value of a unique column meets one row at most. -/
theorem countP_key {t : Table α} {key : α → κ} (hkey : IsKey key) (k : κ) (p : α → Bool) :
    t.rows.countP (fun a => decide (key a = k) && p a) =
      (t.lookup key k).elim 0 fun a => if p a then 1 else 0 := by
  obtain ⟨rows, unique⟩ := t
  show rows.countP _ = (rows.find? _).elim 0 _
  induction rows with
  | nil => rfl
  | cons a rows ih =>
    obtain ⟨hapart, hrest⟩ := List.pairwise_cons.mp unique
    rw [List.countP_cons, List.find?_cons]
    by_cases hk : key a = k
    · have hnone : rows.countP (fun b => decide (key b = k) && p b) = 0 := by
        refine List.countP_eq_zero.mpr fun b hb hbk => ?_
        simp only [Bool.and_eq_true, decide_eq_true_eq] at hbk
        have hclash := hkey a b (hk.trans hbk.1.symm)
        rw [hapart b hb] at hclash
        cases hclash
      rw [hnone]
      simp [hk]
    · rw [ih hrest]
      simp [hk]

end Table

/-! ## `LIMIT 1` -/

/-- What `LIMIT 1` gives without an `ORDER BY`: one of the rows, where there is one. -/
structure LimitOne (α : Type u) where
  pick : List α → Option α
  mem : ∀ rows, ∀ row ∈ pick rows, row ∈ rows
  pick_ne_none : ∀ rows, rows ≠ [] → pick rows ≠ none

namespace LimitOne

variable {α : Type u}

/-- The first of the rows. -/
def first : LimitOne α where
  pick := List.head?
  mem _ _ := List.mem_of_head?
  pick_ne_none _ h hnone := h (List.head?_eq_none_iff.mp hnone)

variable (limitOne : LimitOne α) {rows : List α}

/-- One of the rows is taken, unless there are none. -/
theorem pick_eq_none_iff : limitOne.pick rows = none ↔ rows = [] := by
  constructor
  · intro hnone
    by_contra hne
    exact limitOne.pick_ne_none rows hne hnone
  · rintro rfl
    cases hpick : limitOne.pick [] with
    | none => rfl
    | some row => cases limitOne.mem [] row hpick

end LimitOne

end Infra
