import Mathlib

/-!
# JSON values and text

The values that cross the boundaries of the program. A column that holds `JSON.stringify(value)`
and is read back with `JSON.parse` is modelled by the value itself; where the text matters (it is
hashed), `Json.stringify` gives it.
-/

namespace InboxServer

/--
A JSON value. The fields of an object stand in insertion order, each name once. A number is carried
by its text, as `JSON.stringify` writes it: `1`, `-0.5`, `1e+21`.
-/
inductive Json where
  | null
  | bool (b : Bool)
  | num (text : String)
  | str (s : String)
  | arr (items : List Json)
  | obj (fields : List (String × Json))

/-- The entries of an object, in insertion order, each name once. -/
abbrev Entries (α : Type) := List (String × α)

/--
`{...entries, [name]: value}`: an entry keeps its place when it is set again, and goes to the end
when it is new.
-/
def Entries.set {α : Type} (entries : Entries α) (name : String) (value : α) : Entries α :=
  if entries.any (fun e => e.1 = name) then
    entries.map fun e => if e.1 = name then (name, value) else e
  else entries ++ [(name, value)]

abbrev Fields := Entries Json

namespace Json

mutual

/-- Two values are compared part by part. -/
def decEq : (a b : Json) → Decidable (a = b)
  | null, null => isTrue rfl
  | bool a, bool b => decidable_of_iff (a = b) (by simp)
  | num a, num b => decidable_of_iff (a = b) (by simp)
  | str a, str b => decidable_of_iff (a = b) (by simp)
  | arr as, arr bs => @decidable_of_iff _ (as = bs) (by simp) (decEqItems as bs)
  | obj as, obj bs => @decidable_of_iff _ (as = bs) (by simp) (decEqFields as bs)
  | null, bool _ | null, num _ | null, str _ | null, arr _ | null, obj _
  | bool _, null | bool _, num _ | bool _, str _ | bool _, arr _ | bool _, obj _
  | num _, null | num _, bool _ | num _, str _ | num _, arr _ | num _, obj _
  | str _, null | str _, bool _ | str _, num _ | str _, arr _ | str _, obj _
  | arr _, null | arr _, bool _ | arr _, num _ | arr _, str _ | arr _, obj _
  | obj _, null | obj _, bool _ | obj _, num _ | obj _, str _ | obj _, arr _ => isFalse (by simp)

def decEqItems : (as bs : List Json) → Decidable (as = bs)
  | [], [] => isTrue rfl
  | a :: as, b :: bs =>
    @decidable_of_iff _ (a = b ∧ as = bs) (by simp)
      (@instDecidableAnd _ _ (decEq a b) (decEqItems as bs))
  | [], _ :: _ | _ :: _, [] => isFalse (by simp)

def decEqFields : (as bs : List (String × Json)) → Decidable (as = bs)
  | [], [] => isTrue rfl
  | (m, a) :: as, (n, b) :: bs =>
    @decidable_of_iff _ (m = n ∧ a = b ∧ as = bs) (by simp [and_assoc])
      (@instDecidableAnd _ _ (instDecidableEqString m n)
        (@instDecidableAnd _ _ (decEq a b) (decEqFields as bs)))
  | [], _ :: _ | _ :: _, [] => isFalse (by simp)

end

instance : DecidableEq Json := decEq

/-- `isRecord(value) ? value : {}` -/
def record : Option Json → Fields
  | some (.obj fields) => fields
  | _ => []

/-- A string of at least one character, as `z.string().min(1)` accepts it. -/
def nonEmptyString? : Json → Option String
  | .str s => if s = "" then none else some s
  | _ => none

/-- A control character in a string literal, `\u001f`. -/
def escapeControl (c : Char) : List Char :=
  let hex (n : Nat) : Char := if n < 10 then Char.ofNat (48 + n) else Char.ofNat (87 + n)
  ['\\', 'u', '0', '0', hex (c.toNat / 16), hex (c.toNat % 16)]

/-- A character inside a string literal. -/
def escapeChar (c : Char) : List Char :=
  if c = '"' then ['\\', '"']
  else if c = '\\' then ['\\', '\\']
  else if c = '\x08' then ['\\', 'b']
  else if c = '\x0c' then ['\\', 'f']
  else if c = '\n' then ['\\', 'n']
  else if c = '\r' then ['\\', 'r']
  else if c = '\t' then ['\\', 't']
  else if c.toNat < 32 then escapeControl c
  else [c]

def quote (s : String) : String := String.ofList ('"' :: s.toList.flatMap escapeChar ++ ['"'])

mutual

/-- `JSON.stringify(value)` -/
def stringify : Json → String
  | null => "null"
  | bool b => if b then "true" else "false"
  | num text => text
  | str s => quote s
  | arr items => "[" ++ ",".intercalate (stringifyItems items) ++ "]"
  | obj fields => "\x7b" ++ ",".intercalate (stringifyFields fields) ++ "\x7d"

def stringifyItems : List Json → List String
  | [] => []
  | item :: items => stringify item :: stringifyItems items

def stringifyFields : List (String × Json) → List String
  | [] => []
  | (name, value) :: fields => (quote name ++ ":" ++ stringify value) :: stringifyFields fields

end

end Json

/-! ## Text -/

/-- The UTF-16 code units of a text, by which `sort()` compares. -/
def utf16Units (text : String) : List Nat :=
  text.toList.flatMap fun c =>
    if c.toNat < 0x10000 then [c.toNat]
    else [0xd800 + (c.toNat - 0x10000) / 0x400, 0xdc00 + (c.toNat - 0x10000) % 0x400]

/--
`text.slice(0, n)`, counted in UTF-16 code units.

A pair cut in half becomes U+FFFD once the text is stored as UTF-8.
-/
def sliceUnits : Nat → List Char → List Char
  | _, [] => []
  | 0, _ => []
  | n + 1, c :: cs =>
    if c.toNat < 0x10000 then c :: sliceUnits n cs
    else match n with
      | 0 => ['\uFFFD']
      | m + 1 => c :: sliceUnits m cs

/-- `text.slice(0, 500)`, the longest message that is stored. -/
def slice500 (text : String) : String := String.ofList (sliceUnits 500 text.toList)

/-- Two texts with a NUL between them, the form of the composite keys. -/
def joinNul (a b : String) : String := a ++ "\u0000" ++ b

theorem isDigit_of_mem_toString {n : Nat} {c : Char} (h : c ∈ (toString n).toList) :
    c.isDigit = true := by
  have hdigits : c ∈ Nat.toDigits 10 n := by
    rw [← Nat.toList_repr]
    exact h
  exact Nat.isDigit_of_mem_toDigits (by decide) (by decide) hdigits

/-- What stands before the first separator, and what stands after it, are read off the whole. -/
theorem append_cons_inj {α : Type*} {c : α} {l l' r r' : List α} (hl : c ∉ l) (hl' : c ∉ l')
    (h : l ++ c :: r = l' ++ c :: r') : l = l' ∧ r = r' := by
  induction l generalizing l' with
  | nil =>
    cases l' with
    | nil => exact ⟨rfl, (List.cons.inj h).2⟩
    | cons x l' => exact absurd (List.mem_cons.mpr (Or.inl (List.cons.inj h).1)) hl'
  | cons x l ih =>
    cases l' with
    | nil => exact absurd (List.mem_cons.mpr (Or.inl (List.cons.inj h).1.symm)) hl
    | cons y l' =>
      obtain ⟨hxy, htail⟩ := List.cons.inj h
      simp only [List.mem_cons, not_or] at hl hl'
      obtain ⟨hl1, hr⟩ := ih hl.2 hl'.2 htail
      exact ⟨by rw [hxy, hl1], hr⟩

/-- A composite key names its parts, where the first has no NUL of its own. -/
theorem joinNul_inj {a a' b b' : String} (ha : '\u0000' ∉ a.toList) (ha' : '\u0000' ∉ a'.toList)
    (h : joinNul a b = joinNul a' b') : a = a' ∧ b = b' := by
  have hl : a.toList ++ '\u0000' :: b.toList = a'.toList ++ '\u0000' :: b'.toList := by
    simpa [joinNul] using congrArg String.toList h
  obtain ⟨h1, h2⟩ := append_cons_inj ha ha' hl
  exact ⟨String.toList_inj.mp h1, String.toList_inj.mp h2⟩

end InboxServer
