import Mathlib

/-!
# Inserts that meet rows that are there

A database of several tables by the keys of its rows, and statements that insert one row each. Where
the row's key is there already, a statement leaves the old row or overwrites parts of it.

* `Upsert.execute_twice` — what has been inserted once is not changed by the same again
* `Upsert.isSome_execute` — no row goes away
* `Upsert.execute_ignored` — a row that is met by ignoring statements only is left as it is
-/

namespace Infra.Upsert

variable {κ : Type} {ρ : κ → Type}

/-- One row, and whether it gives way to a row with its key that is there. -/
structure Insert (ρ : κ → Type) where
  key : κ
  row : ρ key
  ignore : Bool

/-- The rows of a database by their keys. -/
abbrev Rows (ρ : κ → Type) : Type := (key : κ) → Option (ρ key)

/-- How a row that is there is overwritten by a new one. -/
class Overwrites (ρ : κ → Type) where
  overwrite : (key : κ) → ρ key → ρ key → ρ key
  /-- Of two rows that overwrite a row the last one counts. -/
  overwrite_overwrite : ∀ key r a b, overwrite key (overwrite key r a) b = overwrite key r b
  overwrite_self : ∀ key r, overwrite key r r = r

open Overwrites

variable [DecidableEq κ] [Overwrites ρ]

/-- The row of an insert at its key, when `old` is there. -/
def Insert.meet (s : Insert ρ) : Option (ρ s.key) → ρ s.key
  | none => s.row
  | some old => if s.ignore then old else overwrite s.key old s.row

def put (rows : Rows ρ) (s : Insert ρ) : Rows ρ :=
  Function.update rows s.key (some (s.meet (rows s.key)))

/-- The statements, one after the other. -/
def execute (statements : List (Insert ρ)) (rows : Rows ρ) : Rows ρ := statements.foldl put rows

variable {s : Insert ρ} {statements statements' : List (Insert ρ)} {rows rows' : Rows ρ} {key : κ}

@[simp] theorem execute_nil (rows : Rows ρ) : execute [] rows = rows := rfl

@[simp] theorem execute_cons (s : Insert ρ) (statements : List (Insert ρ)) (rows : Rows ρ) :
    execute (s :: statements) rows = execute statements (put rows s) := rfl

theorem execute_append (statements statements' : List (Insert ρ)) (rows : Rows ρ) :
    execute (statements ++ statements') rows = execute statements' (execute statements rows) :=
  List.foldl_append

@[simp] theorem put_self (rows : Rows ρ) (s : Insert ρ) :
    put rows s s.key = some (s.meet (rows s.key)) := Function.update_self ..

theorem put_of_ne (h : s.key ≠ key) (rows : Rows ρ) : put rows s key = rows key :=
  Function.update_of_ne h.symm ..

/-! ## One key at a time -/

/-- What is at a key afterwards depends on what was there only. -/
theorem put_congr (h : rows key = rows' key) (s : Insert ρ) : put rows s key = put rows' s key := by
  by_cases hkey : s.key = key
  · subst hkey
    rw [put_self, put_self, h]
  · rw [put_of_ne hkey, put_of_ne hkey, h]

theorem execute_congr (h : rows key = rows' key) (statements : List (Insert ρ)) :
    execute statements rows key = execute statements rows' key := by
  induction statements generalizing rows rows' with
  | nil => exact h
  | cons s statements ih => exact ih (put_congr h s)

theorem execute_untouched (h : ∀ s ∈ statements, s.key ≠ key) (rows : Rows ρ) :
    execute statements rows key = rows key := by
  induction statements generalizing rows with
  | nil => rfl
  | cons s statements ih =>
    obtain ⟨hs, hrest⟩ := List.forall_mem_cons.mp h
    rw [execute_cons, ih hrest, put_of_ne hs]

theorem isSome_put (h : (rows key).isSome = true) (s : Insert ρ) : (put rows s key).isSome = true := by
  by_cases hkey : s.key = key
  · subst hkey
    rw [put_self]
    rfl
  · rwa [put_of_ne hkey]

/-- No row goes away. -/
theorem isSome_execute (h : (rows key).isSome = true) (statements : List (Insert ρ)) :
    (execute statements rows key).isSome = true := by
  induction statements generalizing rows with
  | nil => exact h
  | cons s statements ih => exact ih (isSome_put h s)

/-- There is a row for each statement. -/
theorem isSome_execute_of_mem (h : s ∈ statements) (rows : Rows ρ) :
    (execute statements rows s.key).isSome = true := by
  obtain ⟨before, after, rfl⟩ := List.append_of_mem h
  rw [execute_append, execute_cons]
  exact isSome_execute (by rw [put_self]; rfl) after

/-- A row that is met by ignoring statements only is left as it is. -/
theorem execute_ignored {row : ρ key} (h : ∀ s ∈ statements, s.key = key → s.ignore = true)
    (hrow : rows key = some row) : execute statements rows key = some row := by
  induction statements generalizing rows with
  | nil => exact hrow
  | cons s statements ih =>
    obtain ⟨hs, hrest⟩ := List.forall_mem_cons.mp h
    refine ih hrest ?_
    by_cases hkey : s.key = key
    · subst hkey
      rw [put_self, hrow, Insert.meet, if_pos (hs rfl)]
    · rw [put_of_ne hkey, hrow]

/-! ## The same again -/

/-- What statements do to a row at the key: they leave it, or overwrite it by `last`. -/
def Acts (statements : List (Insert ρ)) (key : κ) (last : Option (ρ key)) : Prop :=
  ∀ rows row, rows key = some row →
    execute statements rows key = some (last.elim row (overwrite key row))

theorem acts_cons {last : Option (ρ key)} (h : Acts statements key last) (s : Insert ρ)
    (hlast : last ≠ none ∨ s.key ≠ key ∨ s.ignore = true) : Acts (s :: statements) key last := by
  intro rows row hrow
  by_cases hkey : s.key = key
  · subst hkey
    rw [execute_cons, h _ (s.meet (some row)) (by rw [put_self, hrow])]
    rcases hignore : s.ignore with _ | _
    · rcases last with _ | a
      · simp [hignore] at hlast
      · simp [Insert.meet, hignore, overwrite_overwrite]
    · simp [Insert.meet, hignore]
  · exact h _ row (by rw [put_of_ne hkey, hrow])

theorem acts_cons_self (h : Acts statements s.key none) (hignore : s.ignore = false) :
    Acts (s :: statements) s.key (some s.row) := by
  intro rows row hrow
  rw [execute_cons, h _ (s.meet (some row)) (by rw [put_self, hrow])]
  simp [Insert.meet, hignore]

variable (R : (key : κ) → ρ key → ρ key → Prop)

/-- Statements that insert rows which are alike. -/
inductive Alike : Insert ρ → Insert ρ → Prop
  | intro {key : κ} {row row' : ρ key} (ignore : Bool) (h : R key row row') :
    Alike ⟨key, row, ignore⟩ ⟨key, row', ignore⟩

variable {R}

theorem exists_acts (h : List.Forall₂ (Alike R) statements statements') (key : κ) :
    ∃ last last', Option.Rel (R key) last last' ∧ Acts statements key last ∧
      Acts statements' key last' := by
  induction h with
  | nil => exact ⟨none, none, .none, fun _ _ h => h, fun _ _ h => h⟩
  | @cons s s' statements statements' halike _ ih =>
    obtain ⟨last, last', hrel, hacts, hacts'⟩ := ih
    rcases hrel with @⟨a, a', hrel⟩ | _
    · exact ⟨some a, some a', .some hrel, acts_cons hacts s (.inl (by simp)),
        acts_cons hacts' s' (.inl (by simp))⟩
    · obtain @⟨here, row, row', ignore, hrow⟩ := halike
      by_cases hpass : here ≠ key ∨ ignore = true
      · exact ⟨none, none, .none, acts_cons hacts _ (.inr hpass), acts_cons hacts' _ (.inr hpass)⟩
      · simp only [ne_eq, not_or, not_not, Bool.not_eq_true] at hpass
        obtain ⟨rfl, hignore⟩ := hpass
        exact ⟨some row, some row', .some hrow, acts_cons_self hacts hignore,
          acts_cons_self hacts' hignore⟩

/-- A key that had no row has none afterwards, or what it would have with some row there before. -/
theorem execute_of_none (statements : List (Insert ρ)) (h : rows key = none) :
    (execute statements rows key = none ∧ ∀ s ∈ statements, s.key ≠ key) ∨
      ∃ row, execute statements rows key =
        execute statements (Function.update rows key (some row)) key := by
  induction statements generalizing rows with
  | nil => exact .inl ⟨h, by simp⟩
  | cons s statements ih =>
    by_cases hkey : s.key = key
    · subst hkey
      refine .inr ⟨s.row, execute_congr ?_ statements⟩
      rw [put_self, put_self, h, Function.update_self]
      rcases hignore : s.ignore with _ | _ <;> simp [Insert.meet, hignore, overwrite_self]
    · have hput : put rows s key = none := by rw [put_of_ne hkey, h]
      rcases ih hput with ⟨hnone, hrest⟩ | ⟨row, hrow⟩
      · exact .inl ⟨hnone, List.forall_mem_cons.mpr ⟨hkey, hrest⟩⟩
      · refine .inr ⟨row, hrow.trans (execute_congr ?_ statements)⟩
        rw [Function.update_self, put_of_ne hkey, Function.update_self]

omit [DecidableEq κ] [Overwrites ρ] in
theorem keys_eq (h : List.Forall₂ (Alike R) statements statements') :
    statements.map Insert.key = statements'.map Insert.key := by
  induction h with
  | nil => rfl
  | cons halike _ ih =>
    cases halike
    rw [List.map_cons, List.map_cons, ih]

/-- **The same rows once more change nothing, up to what makes rows alike.** -/
theorem execute_twice (hrefl : ∀ key row, R key row row)
    (hoverwrite : ∀ key row a a', R key a a' → R key (overwrite key row a') (overwrite key row a))
    (h : List.Forall₂ (Alike R) statements statements') (rows : Rows ρ) (key : κ) :
    Option.Rel (R key) (execute statements' (execute statements rows) key)
      (execute statements rows key) := by
  obtain ⟨last, last', hrel, hacts, hacts'⟩ := exists_acts h key
  have hagain : ∀ row, (execute statements rows key = some (last.elim row (overwrite key row))) →
      Option.Rel (R key) (execute statements' (execute statements rows) key)
        (execute statements rows key) := by
    intro row hrow
    rw [hacts' _ _ hrow, hrow]
    rcases hrel with @⟨a, a', ha⟩ | _
    · refine .some ?_
      have := hoverwrite key (overwrite key row a) a a' ha
      simp only [Option.elim_some]
      rwa [overwrite_overwrite _ row a a] at this
    · exact .some (hrefl key row)
  rcases hrows : rows key with _ | row
  · rcases execute_of_none statements hrows with ⟨hnone, hkeys⟩ | ⟨row, hrow⟩
    · have hkeys' : ∀ s ∈ statements', s.key ≠ key := by
        intro s hs heq
        have hmem : key ∈ statements.map Insert.key := by
          rw [keys_eq h, ← heq]
          exact List.mem_map_of_mem hs
        obtain ⟨t, ht, hkey⟩ := List.mem_map.mp hmem
        exact hkeys t ht hkey
      rw [execute_untouched hkeys', hnone]
      exact .none
    · exact hagain row (hrow.trans (hacts _ row (Function.update_self ..)))
  · exact hagain row (hacts rows row hrows)

end Infra.Upsert
