import InboxServer.Domain.Json
import InboxServer.Domain.CivilDate

/-!
# The text of an instant

`new Date(ms).toISOString()`

* `toISOString_injective` — no two instants have one text
-/

namespace InboxServer

/-! ## Digits -/

/-- The last `k` decimal digits of a number. -/
def digits : Nat → Nat → List Char
  | 0, _ => []
  | k + 1, n => digits k (n / 10) ++ [Nat.digitChar (n % 10)]

/-- The number that the digits stand for. -/
def digitsValue (text : List Char) : Nat := text.foldl (fun n c => 10 * n + (c.toNat - 48)) 0

theorem toNat_digitChar : ∀ n < 10, (Nat.digitChar n).toNat - 48 = n := by decide

theorem digitsValue_digits {k n : Nat} (h : n < 10 ^ k) : digitsValue (digits k n) = n := by
  induction k generalizing n with
  | zero => simp at h; simp [digits, digitsValue, h]
  | succ k ih =>
    have hshort : n / 10 < 10 ^ k := by
      rw [pow_succ] at h
      omega
    have hvalue := ih hshort
    unfold digitsValue at hvalue ⊢
    rw [digits, List.foldl_append, hvalue, List.foldl_cons, List.foldl_nil,
      toNat_digitChar _ (Nat.mod_lt _ (by decide))]
    omega

theorem isDigit_of_mem_digits {k n : Nat} {c : Char} (h : c ∈ digits k n) : c.isDigit = true := by
  induction k generalizing n with
  | zero => cases h
  | succ k ih =>
    rcases List.mem_append.mp h with hold | hlast
    · exact ih hold
    · obtain rfl := List.mem_singleton.mp hlast
      have hall : ∀ d < 10, (Nat.digitChar d).isDigit = true := by decide
      exact hall _ (Nat.mod_lt _ (by decide))

/-- Digits that end at a separator are read off a text. -/
theorem digits_append_inj {k k' n n' : Nat} {c : Char} {rest rest' : List Char}
    (hc : c.isDigit = false) (hn : n < 10 ^ k) (hn' : n' < 10 ^ k')
    (h : digits k n ++ c :: rest = digits k' n' ++ c :: rest') : n = n' ∧ rest = rest' := by
  have hfree : ∀ k n, c ∉ digits k n := by
    intro k n hmem
    rw [isDigit_of_mem_digits hmem] at hc
    cases hc
  obtain ⟨hdigits, hrest⟩ := append_cons_inj (hfree k n) (hfree k' n') h
  refine ⟨?_, hrest⟩
  rw [← digitsValue_digits hn, ← digitsValue_digits hn', hdigits]

/-! ## Texts -/

/-- The digits of a year, at least six of them; no `Date` has a year of more. -/
def yearDigits (year : Int) : List Char :=
  digits (max 6 (Nat.log 10 year.natAbs + 1)) year.natAbs

/-- The year of a text: four digits, or a sign and six. -/
def yearText (year : Int) : List Char :=
  if 0 ≤ year ∧ year ≤ 9999 then digits 4 year.toNat
  else (if year < 0 then '-' else '+') :: yearDigits year

/-- `new Date(instant).toISOString()` -/
def toISOString (instant : Int) : String :=
  let date := civilDate (instant / 86400000)
  let ms := (instant % 86400000).toNat
  String.ofList (yearText date.year ++ '-' :: (digits 2 date.month.toNat ++ '-' :: (digits 2 date.day.toNat ++
    'T' :: (digits 2 (ms / 3600000) ++ ':' :: (digits 2 (ms / 60000 % 60) ++
      ':' :: (digits 2 (ms / 1000 % 60) ++ '.' :: (digits 3 (ms % 1000) ++ ['Z'])))))))

example : toISOString 1767600000000 = "2026-01-05T08:00:00.000Z" := by decide

theorem natAbs_lt_yearDigits (year : Int) :
    year.natAbs < 10 ^ max 6 (Nat.log 10 year.natAbs + 1) :=
  (Nat.lt_pow_succ_log_self (by decide) _).trans_le (Nat.pow_le_pow_right (by decide) (by omega))

/-- Four digits do not begin with a sign. -/
theorem digits_append_ne_sign {n : Nat} {year : Int} {rest rest' : List Char} :
    digits 4 n ++ rest ≠ (if year < 0 then '-' else '+') :: rest' := by
  intro h
  have hhead : ∃ c l, digits 4 n = c :: l := ⟨_, _, rfl⟩
  obtain ⟨c, l, hc⟩ := hhead
  have hdigit : c.isDigit = true := isDigit_of_mem_digits (hc ▸ List.mem_cons_self)
  rw [hc, List.cons_append] at h
  rw [(List.cons.inj h).1] at hdigit
  split at hdigit <;> cases hdigit

theorem yearText_append_inj {year year' : Int} {rest rest' : List Char}
    (h : yearText year ++ '-' :: rest = yearText year' ++ '-' :: rest') :
    year = year' ∧ rest = rest' := by
  unfold yearText at h
  by_cases hin : 0 ≤ year ∧ year ≤ 9999
  · rw [if_pos hin] at h
    by_cases hin' : 0 ≤ year' ∧ year' ≤ 9999
    · rw [if_pos hin'] at h
      obtain ⟨hyear, hrest⟩ := digits_append_inj rfl (by omega) (by omega) h
      exact ⟨by omega, hrest⟩
    · rw [if_neg hin'] at h
      exact absurd h digits_append_ne_sign
  · rw [if_neg hin] at h
    by_cases hin' : 0 ≤ year' ∧ year' ≤ 9999
    · rw [if_pos hin'] at h
      exact absurd h.symm digits_append_ne_sign
    · rw [if_neg hin'] at h
      simp only [List.cons_append, List.cons.injEq] at h
      obtain ⟨hyear, hrest⟩ := digits_append_inj rfl (natAbs_lt_yearDigits year)
        (natAbs_lt_yearDigits year') h.2
      refine ⟨?_, hrest⟩
      have hsign := h.1
      split_ifs at hsign with hneg hneg' hneg'
      · omega
      · cases hsign
      · cases hsign
      · omega

/-- **No two instants have one text.** -/
theorem toISOString_injective : Function.Injective toISOString := by
  intro instant instant' h
  have hlists := congrArg String.toList h
  simp only [toISOString, String.toList_ofList] at hlists
  have hshort : ∀ day, (civilDate day).month.toNat < 10 ^ 2 ∧ (civilDate day).day.toNat < 10 ^ 2 := by
    intro day
    have hle := civilDate_le day
    omega
  obtain ⟨hyears, hrest⟩ := yearText_append_inj hlists
  obtain ⟨hmonths, hrest⟩ := digits_append_inj rfl (hshort _).1 (hshort _).1 hrest
  obtain ⟨hdays, hrest⟩ := digits_append_inj rfl (hshort _).2 (hshort _).2 hrest
  obtain ⟨hhours, hrest⟩ := digits_append_inj rfl (by omega) (by omega) hrest
  obtain ⟨hminutes, hrest⟩ := digits_append_inj rfl (by omega) (by omega) hrest
  obtain ⟨hseconds, hrest⟩ := digits_append_inj rfl (by omega) (by omega) hrest
  obtain ⟨hmillis, -⟩ := digits_append_inj rfl (by omega) (by omega) hrest
  have hdate : civilDate (instant / 86400000) = civilDate (instant' / 86400000) := by
    have hpos := civilDate_pos (instant / 86400000)
    have hpos' := civilDate_pos (instant' / 86400000)
    cases hc : civilDate (instant / 86400000)
    cases hc' : civilDate (instant' / 86400000)
    simp only [hc, hc', CivilDate.mk.injEq] at *
    omega
  have hsame := civilDate_inj hdate
  omega

end InboxServer
