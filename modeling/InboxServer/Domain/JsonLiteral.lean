import InboxServer.Domain.JsonText

/-!
# String literals as `JSON.parse` reads them

What is read is a string of the source, a list of UTF-16 code units: an escape may name a half of a
surrogate pair.

* `utf16Units_injective` — a text is that of one list of code units
* `readLiteral_quote` — a text is read back from its literal
-/

namespace InboxServer

/-! ## Code units -/

/-- The code units of one character. -/
def charUnits (c : Char) : List Nat :=
  if c.toNat < 0x10000 then [c.toNat]
  else [0xd800 + (c.toNat - 0x10000) / 0x400, 0xdc00 + (c.toNat - 0x10000) % 0x400]

theorem Char.toNat_inj {c d : Char} (h : c.toNat = d.toNat) : c = d := Char.ext (UInt32.toNat_inj.mp h)

/-- No character is a surrogate, and none is above U+10FFFF. -/
theorem Char.toNat_range (c : Char) :
    c.toNat < 0xd800 ∨ (0xdfff < c.toNat ∧ c.toNat < 0x110000) := c.valid

/-- A character can be read off the front of the code units. -/
theorem charUnits_append_inj {c d : Char} {us vs : List Nat}
    (h : charUnits c ++ us = charUnits d ++ vs) : c = d ∧ us = vs := by
  have hc := Char.toNat_range c
  have hd := Char.toNat_range d
  unfold charUnits at h
  split at h <;> split at h
  · simp only [List.cons_append, List.nil_append, List.cons.injEq] at h
    exact ⟨Char.toNat_inj h.1, h.2⟩
  · simp only [List.cons_append, List.nil_append, List.cons.injEq] at h
    omega
  · simp only [List.cons_append, List.nil_append, List.cons.injEq] at h
    omega
  · simp only [List.cons_append, List.nil_append, List.cons.injEq] at h
    obtain ⟨hhigh, hlow, hrest⟩ := h
    exact ⟨Char.toNat_inj (by omega), hrest⟩

theorem flatMap_charUnits_inj {cs ds : List Char}
    (h : cs.flatMap charUnits = ds.flatMap charUnits) : cs = ds := by
  have hne : ∀ c, charUnits c ≠ [] := fun c => by
    unfold charUnits
    split <;> simp
  induction cs generalizing ds with
  | nil =>
    cases ds with
    | nil => rfl
    | cons d ds => exact absurd (List.append_eq_nil_iff.mp h.symm).1 (hne d)
  | cons c cs ih =>
    cases ds with
    | nil => exact absurd (List.append_eq_nil_iff.mp h).1 (hne c)
    | cons d ds =>
      obtain ⟨rfl, hrest⟩ := charUnits_append_inj h
      rw [ih hrest]

theorem utf16Units_injective : Function.Injective utf16Units := fun _ _ h =>
  String.toList_inj.mp (flatMap_charUnits_inj h)

namespace Json

/-! ## The reader -/

def hexDigit? (c : Char) : Option Nat :=
  if c.isDigit then some (c.toNat - 48)
  else if 'a' ≤ c && c ≤ 'f' then some (c.toNat - 87)
  else if 'A' ≤ c && c ≤ 'F' then some (c.toNat - 55)
  else none

/-- The code unit that four hexadecimal digits name. -/
def hexUnit? (a b c d : Char) : Option Nat :=
  match hexDigit? a, hexDigit? b, hexDigit? c, hexDigit? d with
  | some a, some b, some c, some d => some (((a * 16 + b) * 16 + c) * 16 + d)
  | _, _, _, _ => none

/-- What a character stands for after a backslash. -/
def escapeUnit? : Char → Option Nat
  | '"' => some 0x22
  | '\\' => some 0x5c
  | '/' => some 0x2f
  | 'b' => some 0x08
  | 'f' => some 0x0c
  | 'n' => some 0x0a
  | 'r' => some 0x0d
  | 't' => some 0x09
  | _ => none

/-- What was read, after what stands before it. -/
def onto (units : List Nat) (read : List Nat × List Char) : List Nat × List Char :=
  (units ++ read.1, read.2)

/-- The inside of a literal up to its closing quote, and what is left of the text. -/
def readLiteral : List Char → Option (List Nat × List Char)
  | [] => none
  | '"' :: rest => some ([], rest)
  | '\\' :: 'u' :: a :: b :: c :: d :: rest =>
    (hexUnit? a b c d).bind fun unit => (readLiteral rest).map (onto [unit])
  | '\\' :: c :: rest => (escapeUnit? c).bind fun unit => (readLiteral rest).map (onto [unit])
  | c :: rest =>
    if c.toNat < 32 || c = '\\' then none else (readLiteral rest).map (onto (charUnits c))

/-- White space between the tokens of JSON. -/
def isJsonSpace (c : Char) : Bool := c = ' ' || c = '\t' || c = '\n' || c = '\r'

/-- `JSON.parse(text)`, where that is a string. -/
def parseString (text : List Char) : Option (List Nat) :=
  match text.dropWhile isJsonSpace with
  | '"' :: rest =>
    match readLiteral rest with
    | some (units, rest) => if rest.all isJsonSpace then some units else none
    | none => none
  | _ => none

/-! ## What is read of a literal -/

theorem onto_onto (us vs : List Nat) : onto us ∘ onto vs = onto (us ++ vs) := by
  funext read
  simp [onto]

/-- A character that is escaped by its number is read as that number. -/
theorem readLiteral_escapeControl (rest : List Char) :
    ∀ n < 32, readLiteral (escapeControl (Char.ofNat n) ++ rest) =
      (readLiteral rest).map (onto (charUnits (Char.ofNat n))) := by
  intro n hn
  have hunit : ∀ a b, hexUnit? '0' '0' a b = some n →
      readLiteral ('\\' :: 'u' :: '0' :: '0' :: a :: b :: rest) =
        (readLiteral rest).map (onto [n]) := by
    intro a b h
    rw [readLiteral, h, Option.bind_some]
  have hchar : charUnits (Char.ofNat n) = [n] := by interval_cases n <;> rfl
  rw [hchar]
  interval_cases n <;> exact hunit _ _ rfl

/-- A character that is escaped by a letter is read as what the letter stands for. -/
theorem readLiteral_escape {c : Char} {unit : Nat} (hc : c ≠ 'u') (h : escapeUnit? c = some unit)
    (rest : List Char) :
    readLiteral ('\\' :: c :: rest) = (readLiteral rest).map (onto [unit]) := by
  rw [readLiteral.eq_def]
  split
  · next heq => cases heq
  · next heq => cases heq
  · next heq => exact absurd (List.cons.inj (List.cons.inj heq).2).1 hc
  · next heq =>
    obtain ⟨rfl, rfl⟩ := List.cons.inj (List.cons.inj heq).2
    rw [h, Option.bind_some]
  · next hno heq =>
    obtain ⟨rfl, rfl⟩ := List.cons.inj heq
    exact (hno _ _ rfl rfl).elim

theorem readLiteral_plain {c : Char} (hquote : c ≠ '"') (hslash : c ≠ '\\') (hc : ¬ c.toNat < 32)
    (rest : List Char) : readLiteral (c :: rest) = (readLiteral rest).map (onto (charUnits c)) := by
  rw [readLiteral.eq_def]
  split
  · next heq => cases heq
  · next heq => exact absurd (List.cons.inj heq).1 hquote
  · next heq => exact absurd (List.cons.inj heq).1 hslash
  · next heq => exact absurd (List.cons.inj heq).1 hslash
  · next heq =>
    obtain ⟨rfl, rfl⟩ := List.cons.inj heq
    rw [if_neg (by simp [hc, hslash])]

theorem readLiteral_escapeChar (c : Char) (rest : List Char) :
    readLiteral (escapeChar c ++ rest) = (readLiteral rest).map (onto (charUnits c)) := by
  unfold escapeChar
  split_ifs with hquote hslash hback hfeed hline hreturn htab hcontrol
  · subst hquote; exact readLiteral_escape (by decide) rfl rest
  · subst hslash; exact readLiteral_escape (by decide) rfl rest
  · subst hback; exact readLiteral_escape (by decide) rfl rest
  · subst hfeed; exact readLiteral_escape (by decide) rfl rest
  · subst hline; exact readLiteral_escape (by decide) rfl rest
  · subst hreturn; exact readLiteral_escape (by decide) rfl rest
  · subst htab; exact readLiteral_escape (by decide) rfl rest
  · have hread := readLiteral_escapeControl rest c.toNat hcontrol
    rwa [Char.ofNat_toNat] at hread
  · exact readLiteral_plain hquote hslash hcontrol rest

theorem readLiteral_escaped (text rest : List Char) :
    readLiteral (text.flatMap escapeChar ++ rest) =
      (readLiteral rest).map (onto (text.flatMap charUnits)) := by
  induction text with
  | nil =>
    have hnil : onto [] = id := by
      funext read
      simp [onto]
    rw [List.flatMap_nil, List.flatMap_nil, hnil, Option.map_id, List.nil_append]
    rfl
  | cons c text ih =>
    rw [List.flatMap_cons, List.append_assoc, readLiteral_escapeChar, ih, Option.map_map, onto_onto,
      List.flatMap_cons]

/-- **A text is read back from its literal.** -/
theorem readLiteral_quote (text rest : List Char) :
    readLiteral (text.flatMap escapeChar ++ '"' :: rest) = some (text.flatMap charUnits, rest) := by
  rw [readLiteral_escaped]
  simp [readLiteral, onto]

/-- A literal that is not closed is not read. -/
theorem readLiteral_open (text : List Char) : readLiteral (text.flatMap escapeChar) = none := by
  have hread := readLiteral_escaped text []
  rw [List.append_nil] at hread
  rw [hread]
  rfl

theorem parseString_quote (s : String) : parseString (quote s).toList = some (utf16Units s) := by
  unfold parseString
  rw [toList_quote, List.dropWhile_cons_of_neg (by decide)]
  simp only [readLiteral_quote, List.all_nil, if_true]
  rfl

theorem parseString_open (text : List Char) :
    parseString ('"' :: text.flatMap escapeChar) = none := by
  unfold parseString
  rw [List.dropWhile_cons_of_neg (by decide)]
  simp only [readLiteral_open]

end Json

end InboxServer
