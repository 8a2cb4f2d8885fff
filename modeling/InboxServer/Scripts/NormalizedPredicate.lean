import Mathlib

/-!
# The predicates of partial indexes

`_normalized_predicate` of `scripts/migrate_d1_snapshot.py`: a scan that leaves quoted text alone,
lowers the rest and drops its spaces where they do not matter, and a loop that takes off parentheses
around the whole.
-/

namespace InboxServer.Predicate

/-- `str.isspace` of one character, which is also what `str.strip()` takes off. -/
def isSpace (c : Char) : Bool :=
  let n := c.toNat
  (9 ≤ n && n ≤ 13) || (28 ≤ n && n ≤ 32) || n = 0x85 || n = 0xA0 || n = 0x1680 ||
    (0x2000 ≤ n && n ≤ 0x200A) || n = 0x2028 || n = 0x2029 || n = 0x202F || n = 0x205F || n = 0x3000

/-- `str.strip()` -/
def strip (text : List Char) : List Char := ((text.dropWhile isSpace).reverse.dropWhile isSpace).reverse

/-- `character in "'\"`["` -/
def opens (c : Char) : Bool := c ∈ ['\'', '"', '`', '[']

/-- What ends the quoted text that `c` opens. -/
def closing (c : Char) : Char := if c = '[' then ']' else c

/-- `"(),="` -/
def separators : List Char := ['(', ')', ',', '=']

/-- `text in "(),="`, which looks for a substring. -/
def isSeparator (text : List Char) : Bool := text <:+: separators

/-- A comment begins with the character, before the rest. -/
def opensComment (c : Char) (rest : List Char) : Bool :=
  (c = '-' && rest.head? = some '-') || (c = '/' && rest.head? = some '*')

/-- Whether a space goes between what was appended last and the character, if there was one. -/
def spaced (pending : Bool) (last : Option (List Char)) (c : Char) : Bool :=
  pending && last.any fun text => !isSeparator text && !isSeparator [c]

/--
The first loop, from where it stands: what `normalized` gets from there on, or `none` where the
text is returned as it is. `last` is `normalized[-1]`, and `lower` is `str.lower` of one character.
-/
def scan (lower : Char → List Char) :
    List Char → Option Char → Bool → Option (List Char) → Option (List (List Char))
  | [], none, _, _ => some []
  | [], some _, _, _ => none
  | [c], some quote, _, _ => if c = quote then some [[c]] else none
  | c :: d :: rest, some quote, pending, _ =>
    if c = quote then
      -- a doubled quote stays inside
      if d = quote then (scan lower rest (some quote) pending (some [d])).map ([c] :: [d] :: ·)
      else (scan lower (d :: rest) none pending (some [c])).map ([c] :: ·)
    else (scan lower (d :: rest) (some quote) pending (some [c])).map ([c] :: ·)
  | c :: rest, none, pending, last =>
    if isSpace c then scan lower rest none true last
    else if opensComment c rest then none
    else
      let space := if spaced pending last c then [[' ']] else []
      if opens c then
        (scan lower rest (some (closing c)) false (some [c])).map (space ++ [c] :: ·)
      else (scan lower rest none false (some (lower c))).map (space ++ lower c :: ·)

/-- The inner loop of the second one: the parenthesis that closes the first one is the last character. -/
def enclosesAll : List Char → Option Char → Int → Bool
  | [], _, depth => depth = 0
  | [_], some _, depth => depth = 0
  | c :: d :: rest, some quote, depth =>
    if c = quote then
      if d = quote then enclosesAll rest (some quote) depth else enclosesAll (d :: rest) none depth
    else enclosesAll (d :: rest) (some quote) depth
  | c :: rest, none, depth =>
    if opens c then enclosesAll rest (some (closing c)) depth
    else if c = '(' then enclosesAll rest none (depth + 1)
    else if c = ')' then
      if depth - 1 = 0 && !rest.isEmpty then false else enclosesAll rest none (depth - 1)
    else enclosesAll rest none depth

/-- `value[1:-1]` -/
def inner (value : List Char) : List Char := value.tail.dropLast

theorem length_strip_le (text : List Char) : (strip text).length ≤ text.length := by
  unfold strip
  rw [List.length_reverse]
  have h := (List.dropWhile_sublist isSpace (l := (text.dropWhile isSpace).reverse)).length_le
  rw [List.length_reverse] at h
  exact h.trans (List.dropWhile_sublist isSpace).length_le

/-- The second loop -/
def stripParens (value : List Char) : List Char :=
  if value.head? = some '(' && value.getLast? = some ')' && enclosesAll value none 0 then
    stripParens (strip (inner value))
  else value
termination_by value.length
decreasing_by
  rename_i h
  cases value with
  | nil => cases h
  | cons c rest =>
    have hle := length_strip_le (inner (c :: rest))
    have hinner : (inner (c :: rest)).length = rest.length - 1 := by simp [inner]
    simp only [List.length_cons]
    omega

/-- `_normalized_predicate` of a text -/
def normalize (lower : Char → List Char) (predicate : List Char) : List Char :=
  let value := strip predicate
  match scan lower value none false none with
  | none => value
  | some normalized => stripParens (strip normalized.flatten)

/-- `_normalized_predicate` -/
def normalizedPredicate (lower : Char → List Char) (predicate : Option String) : Option String :=
  predicate.map fun text => String.ofList (normalize lower text.toList)

end InboxServer.Predicate
