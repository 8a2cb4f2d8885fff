import InboxServer.Domain.Json

/-!
# The text of a JSON value

A value whose numbers are written as numbers is read off its text: no two such values have one text,
and none has a text that another one's text begins with, unless a number goes on there.

* `Json.stringify_append_inj` — what is read of a text, and what is left of it
* `Json.stringify_injective_of_numeric` — so a text is that of one value
-/

namespace InboxServer.Json

/-! ## String literals -/

def hexValue (c : Char) : Nat := if c.toNat < 58 then c.toNat - 48 else c.toNat - 87

/-- The first character of the inside of a string literal, and the rest of it. -/
def readChar : List Char → Option (Char × List Char)
  | '\\' :: '"' :: rest => some ('"', rest)
  | '\\' :: '\\' :: rest => some ('\\', rest)
  | '\\' :: 'b' :: rest => some ('\x08', rest)
  | '\\' :: 'f' :: rest => some ('\x0c', rest)
  | '\\' :: 'n' :: rest => some ('\n', rest)
  | '\\' :: 'r' :: rest => some ('\r', rest)
  | '\\' :: 't' :: rest => some ('\t', rest)
  | '\\' :: 'u' :: _ :: _ :: a :: b :: rest => some (Char.ofNat (16 * hexValue a + hexValue b), rest)
  | c :: rest => some (c, rest)
  | [] => none

theorem readChar_escapeControl (rest : List Char) :
    ∀ n < 32, readChar (escapeControl (Char.ofNat n) ++ rest) = some (Char.ofNat n, rest) := by
  intro n hn
  interval_cases n <;> rfl

/-- A character that is escaped is read as itself. -/
theorem readChar_escapeChar (c : Char) (rest : List Char) :
    readChar (escapeChar c ++ rest) = some (c, rest) := by
  unfold escapeChar
  split_ifs with hquote hslash hback hfeed hline hreturn htab hcontrol
  · rw [hquote]; rfl
  · rw [hslash]; rfl
  · rw [hback]; rfl
  · rw [hfeed]; rfl
  · rw [hline]; rfl
  · rw [hreturn]; rfl
  · rw [htab]; rfl
  · have hread := readChar_escapeControl rest c.toNat hcontrol
    rwa [Char.ofNat_toNat] at hread
  · rw [List.singleton_append]
    unfold readChar
    split <;> simp_all

theorem escapeChar_append_inj {c d : Char} {rest rest' : List Char}
    (h : escapeChar c ++ rest = escapeChar d ++ rest') : c = d ∧ rest = rest' := by
  have hread := readChar_escapeChar c rest
  rw [h, readChar_escapeChar] at hread
  obtain ⟨hc, hrest⟩ := Prod.mk.inj (Option.some.inj hread)
  exact ⟨hc.symm, hrest.symm⟩

/-- A literal does not end inside an escaped character. -/
theorem escapeChar_append_ne (c : Char) (rest rest' : List Char) :
    escapeChar c ++ rest ≠ '"' :: rest' := by
  unfold escapeChar
  split_ifs with hquote <;> simp_all [escapeControl]

/-- An escaped text ends at its quote. -/
theorem escaped_append_inj (s t : List Char) {rest rest' : List Char}
    (h : s.flatMap escapeChar ++ '"' :: rest = t.flatMap escapeChar ++ '"' :: rest') :
    s = t ∧ rest = rest' := by
  induction s generalizing t with
  | nil =>
    cases t with
    | nil => exact ⟨rfl, (List.cons.inj h).2⟩
    | cons d t =>
      rw [List.flatMap_cons, List.append_assoc] at h
      exact absurd h.symm (escapeChar_append_ne d _ _)
  | cons c s ih =>
    cases t with
    | nil =>
      rw [List.flatMap_cons, List.append_assoc] at h
      exact absurd h (escapeChar_append_ne c _ _)
    | cons d t =>
      rw [List.flatMap_cons, List.flatMap_cons, List.append_assoc, List.append_assoc] at h
      obtain ⟨rfl, htail⟩ := escapeChar_append_inj h
      obtain ⟨rfl, hrest⟩ := ih t htail
      exact ⟨rfl, hrest⟩

@[simp] theorem toList_quote (s : String) :
    (quote s).toList = '"' :: (s.toList.flatMap escapeChar ++ ['"']) := by
  simp [quote]

theorem quote_append_inj {s t : String} {rest rest' : List Char}
    (h : (quote s).toList ++ rest = (quote t).toList ++ rest') : s = t ∧ rest = rest' := by
  simp only [toList_quote, List.cons_append, List.append_assoc, List.cons.injEq, true_and] at h
  obtain ⟨hs, hrest⟩ := escaped_append_inj _ _ h
  exact ⟨String.toList_inj.mp hs, hrest⟩

/-! ## Values -/

mutual

/-- There is no number in the value. -/
def numberFree : Json → Bool
  | null | bool _ | str _ => true
  | num _ => false
  | arr items => numberFreeItems items
  | obj fields => numberFreeFields fields

def numberFreeItems : List Json → Bool
  | [] => true
  | item :: items => numberFree item && numberFreeItems items

def numberFreeFields : List (String × Json) → Bool
  | [] => true
  | (_, value) :: fields => numberFree value && numberFreeFields fields

end

/-- A character of a number as `JSON.stringify` writes it. -/
def isNumberChar (c : Char) : Bool := c.isDigit || c = '-' || c = '+' || c = '.' || c = 'e'

mutual

/-- The numbers of the value are written as numbers. -/
def numeric : Json → Bool
  | null | bool _ | str _ => true
  | num text => text ≠ "" && text.toList.all isNumberChar
  | arr items => numericItems items
  | obj fields => numericFields fields

def numericItems : List Json → Bool
  | [] => true
  | item :: items => numeric item && numericItems items

def numericFields : List (String × Json) → Bool
  | [] => true
  | (_, value) :: fields => numeric value && numericFields fields

end

mutual

theorem numeric_of_numberFree : ∀ {v : Json}, v.numberFree = true → v.numeric = true
  | .null, _ | .bool _, _ | .str _, _ => rfl
  | .num _, h => by cases h
  | .arr _, h => numericItems_of_numberFree h
  | .obj _, h => numericFields_of_numberFree h

theorem numericItems_of_numberFree : ∀ {items : List Json}, numberFreeItems items = true →
    numericItems items = true
  | [], _ => rfl
  | _ :: _, h => by
    simp only [numberFreeItems, numericItems, Bool.and_eq_true] at h ⊢
    exact ⟨numeric_of_numberFree h.1, numericItems_of_numberFree h.2⟩

theorem numericFields_of_numberFree : ∀ {fields : List (String × Json)},
    numberFreeFields fields = true → numericFields fields = true
  | [], _ => rfl
  | (_, _) :: _, h => by
    simp only [numberFreeFields, numericFields, Bool.and_eq_true] at h ⊢
    exact ⟨numeric_of_numberFree h.1, numericFields_of_numberFree h.2⟩

end

/-- A number does not go on in what follows it. -/
def Closes (rest : List Char) : Prop := ∀ c ∈ rest.head?, isNumberChar c = false

theorem takeWhile_isNumberChar {text : String} {rest : List Char}
    (htext : text.toList.all isNumberChar = true) (hrest : Closes rest) :
    (text.toList ++ rest).takeWhile isNumberChar = text.toList := by
  rw [List.takeWhile_append_of_pos (List.all_eq_true.mp htext)]
  rcases rest with _ | ⟨c, rest⟩
  · simp
  · simp [hrest c rfl]

theorem number_append_inj {text text' : String} {rest rest' : List Char}
    (htext : text.toList.all isNumberChar = true) (htext' : text'.toList.all isNumberChar = true)
    (hrest : Closes rest) (hrest' : Closes rest')
    (h : text.toList ++ rest = text'.toList ++ rest') : text = text' ∧ rest = rest' := by
  have hsame := congrArg (List.takeWhile isNumberChar) h
  rw [takeWhile_isNumberChar htext hrest, takeWhile_isNumberChar htext' hrest'] at hsame
  rw [hsame] at h
  exact ⟨String.toList_inj.mp hsame, List.append_cancel_left h⟩

/-- The text of a number begins with a character of a number. -/
theorem number_append_ne {text : String} {c : Char} {rest rest' : List Char}
    (h : (num text).numeric = true) (hc : isNumberChar c = false) :
    text.toList ++ rest ≠ c :: rest' := by
  simp only [numeric, ne_eq, decide_not, Bool.and_eq_true, Bool.not_eq_true',
    decide_eq_false_iff_not] at h
  rcases hlist : text.toList with _ | ⟨d, ds⟩
  · exact absurd (String.toList_eq_nil_iff.mp hlist) h.1
  · rintro heq
    obtain ⟨rfl, -⟩ := List.cons.inj heq
    have := List.all_eq_true.mp h.2 d (by simp [hlist])
    rw [hc] at this
    cases this

/-- The texts with a comma before each. -/
def commas (texts : List String) : List Char := texts.flatMap fun text => ',' :: text.toList

theorem toList_intercalate_cons (text : String) (texts : List String) :
    (",".intercalate (text :: texts)).toList = text.toList ++ commas texts := by
  induction texts generalizing text with
  | nil => simp [commas]
  | cons next texts ih =>
    rw [String.intercalate_cons_cons, String.toList_append, String.toList_append, ih]
    simp [commas]

/-- The text of a value does not begin as the end of an array does. -/
theorem stringify_append_ne {v : Json} (hv : v.numeric = true) (rest rest' : List Char) :
    v.stringify.toList ++ rest ≠ ']' :: rest' := by
  cases v with
  | null | arr | obj | str => simp [stringify]
  | bool b => cases b <;> simp [stringify]
  | num text => exact number_append_ne hv rfl

theorem toList_arr (item : Json) (items : List Json) :
    (arr (item :: items)).stringify.toList =
      '[' :: (item.stringify.toList ++ (commas (stringifyItems items) ++ [']'])) := by
  simp only [stringify, stringifyItems, String.toList_append, toList_intercalate_cons,
    List.append_assoc]
  rfl

theorem toList_obj (name : String) (value : Json) (fields : List (String × Json)) :
    (obj ((name, value) :: fields)).stringify.toList =
      '\x7b' :: ((quote name).toList ++
        (':' :: (value.stringify.toList ++ (commas (stringifyFields fields) ++ ['\x7d'])))) := by
  simp only [stringify, stringifyFields, String.toList_append, toList_intercalate_cons,
    List.append_assoc]
  rfl

/-- An object that has a field is not the empty one, by its text. -/
theorem toList_obj_nil (rest : List Char) :
    (obj []).stringify.toList ++ rest = '\x7b' :: '\x7d' :: rest := rfl

/-- A value that is no number does not begin as one. -/
theorem exists_head {v : Json} (h : ∀ text, v ≠ num text) :
    ∃ c cs, v.stringify.toList = c :: cs ∧ isNumberChar c = false := by
  cases v with
  | null => exact ⟨'n', _, by simp only [stringify]; rfl, rfl⟩
  | bool b =>
    cases b
    · exact ⟨'f', _, by simp only [stringify]; rfl, rfl⟩
    · exact ⟨'t', _, by simp only [stringify]; rfl, rfl⟩
  | num text => exact absurd rfl (h text)
  | str s => exact ⟨'"', _, toList_quote s, rfl⟩
  | arr items => exact ⟨'[', _, by simp only [stringify, String.toList_append, List.append_assoc]; rfl, rfl⟩
  | obj fields =>
    exact ⟨'\x7b', _, by simp only [stringify, String.toList_append, List.append_assoc]; rfl, rfl⟩

theorem number_ne {text : String} {v : Json} {rest rest' : List Char}
    (htext : (num text).numeric = true) (h : ∀ text, v ≠ num text) :
    text.toList ++ rest ≠ v.stringify.toList ++ rest' := by
  obtain ⟨c, cs, hv, hc⟩ := exists_head h
  rw [hv]
  exact number_append_ne htext hc

/-- What follows an item of an array is a comma or the end. -/
theorem closes_items (texts : List String) (rest : List Char) :
    Closes (commas texts ++ ([']'] ++ rest)) := by
  rcases texts with _ | ⟨text, texts⟩ <;> rintro c ⟨⟩ <;> rfl

theorem closes_fields (texts : List String) (rest : List Char) :
    Closes (commas texts ++ (['\x7d'] ++ rest)) := by
  rcases texts with _ | ⟨text, texts⟩ <;> rintro c ⟨⟩ <;> rfl

mutual

/-- **What is read of a text is one value, and what is left is what was left.** -/
theorem stringify_append_inj : ∀ {v w : Json} {rest rest' : List Char}, v.numeric = true →
    w.numeric = true → Closes rest → Closes rest' →
    v.stringify.toList ++ rest = w.stringify.toList ++ rest' → v = w ∧ rest = rest'
  -- the first character tells the shapes apart, but for a number, which `number_ne` tells
  | .null, w, rest, rest', _, hw, _, _, h => by
    cases w with
    | null => exact ⟨rfl, by simpa [stringify] using h⟩
    | num text => exact absurd h.symm (number_ne hw (by simp))
    | bool b => cases b <;> simp [stringify] at h
    | str | arr | obj => simp [stringify] at h
  | .bool b, w, rest, rest', _, hw, _, _, h => by
    cases w with
    | bool b' =>
      cases b <;> cases b' <;> simp [stringify] at h
      · exact ⟨rfl, h⟩
      · exact ⟨rfl, h⟩
    | num text => exact absurd h.symm (number_ne hw (by simp))
    | null | str | arr | obj => cases b <;> simp [stringify] at h
  -- a number ends where its text stops, since `Closes` lets no digit follow
  | .num text, w, rest, rest', hv, hw, hrest, hrest', h => by
    cases w with
    | num text' =>
      simp only [numeric, Bool.and_eq_true] at hv hw
      obtain ⟨rfl, hsame⟩ := number_append_inj hv.2 hw.2 hrest hrest' h
      exact ⟨rfl, hsame⟩
    | null | bool | str | arr | obj => exact absurd h (number_ne hv (by simp))
  | .str s, w, rest, rest', _, hw, _, _, h => by
    cases w with
    | str t =>
      obtain ⟨rfl, hrest⟩ := quote_append_inj h
      exact ⟨rfl, hrest⟩
    | num text => exact absurd h.symm (number_ne hw (by simp))
    | bool b => cases b <;> simp [stringify] at h
    | null | arr | obj => simp [stringify] at h
  | .arr items, w, rest, rest', hv, hw, _, _, h => by
    cases w with
    | arr items' =>
      cases items with
      | nil =>
        cases items' with
        | nil => exact ⟨rfl, by simpa [stringify, stringifyItems] using h⟩
        | cons item' items' =>
          simp only [numeric, numericItems, Bool.and_eq_true] at hw
          rw [toList_arr] at h
          simp only [stringify, stringifyItems, List.cons_append, List.append_assoc] at h
          exact absurd (List.cons.inj h).2.symm (stringify_append_ne hw.1 _ _)
      | cons item items =>
        simp only [numeric, numericItems, Bool.and_eq_true] at hv
        cases items' with
        | nil =>
          rw [toList_arr] at h
          simp only [stringify, stringifyItems, List.cons_append, List.append_assoc] at h
          exact absurd (List.cons.inj h).2 (stringify_append_ne hv.1 _ _)
        | cons item' items' =>
          simp only [numeric, numericItems, Bool.and_eq_true] at hw
          rw [toList_arr, toList_arr] at h
          simp only [List.cons_append, List.append_assoc, List.cons.injEq, true_and] at h
          -- the first items are followed by a comma or the bracket, so the induction applies
          obtain ⟨rfl, htail⟩ := stringify_append_inj hv.1 hw.1 (closes_items _ _) (closes_items _ _) h
          obtain ⟨rfl, hrest⟩ := stringifyItems_append_inj hv.2 hw.2 htail
          exact ⟨rfl, hrest⟩
    | num text => exact absurd h.symm (number_ne hw (by simp))
    | bool b => cases b <;> simp [stringify] at h
    | null | str | obj => simp [stringify] at h
  | .obj fields, w, rest, rest', hv, hw, _, _, h => by
    cases w with
    | obj fields' =>
      cases fields with
      | nil =>
        cases fields' with
        | nil => exact ⟨rfl, by simpa [toList_obj_nil] using h⟩
        | cons field' fields' =>
          rw [toList_obj_nil, toList_obj] at h
          simp at h
      | cons field fields =>
        simp only [numeric, numericFields, Bool.and_eq_true] at hv
        cases fields' with
        | nil =>
          rw [toList_obj_nil, toList_obj] at h
          simp at h
        | cons field' fields' =>
          simp only [numeric, numericFields, Bool.and_eq_true] at hw
          rw [toList_obj, toList_obj] at h
          simp only [List.cons_append, List.append_assoc, List.cons.injEq, true_and] at h
          -- first the name, then the colon, then the value
          obtain ⟨hname, hvalue⟩ := quote_append_inj h
          simp only [List.cons.injEq, true_and] at hvalue
          obtain ⟨hsame, htail⟩ := stringify_append_inj hv.1 hw.1 (closes_fields _ _)
            (closes_fields _ _) hvalue
          obtain ⟨rfl, hrest⟩ := stringifyFields_append_inj hv.2 hw.2 htail
          obtain rfl : field = field' := Prod.ext hname hsame
          exact ⟨rfl, hrest⟩
    | num text => exact absurd h.symm (number_ne hw (by simp))
    | bool b => cases b <;> simp [stringify] at h
    | null | str | arr => simp [stringify] at h

theorem stringifyItems_append_inj : ∀ {items items' : List Json} {rest rest' : List Char},
    numericItems items = true → numericItems items' = true →
    commas (stringifyItems items) ++ ([']'] ++ rest) =
      commas (stringifyItems items') ++ ([']'] ++ rest') → items = items' ∧ rest = rest'
  | [], [], _, _, _, _, h => ⟨rfl, by simpa using h⟩
  | [], _ :: _, _, _, _, _, h => by simp [commas, stringifyItems] at h
  | _ :: _, [], _, _, _, _, h => by simp [commas, stringifyItems] at h
  | item :: items, item' :: items', rest, rest', hv, hw, h => by
    simp only [numericItems, Bool.and_eq_true] at hv hw
    have hcut : item.stringify.toList ++ (commas (stringifyItems items) ++ ([']'] ++ rest)) =
        item'.stringify.toList ++ (commas (stringifyItems items') ++ ([']'] ++ rest')) := by
      simpa [commas, stringifyItems] using h
    obtain ⟨rfl, htail⟩ := stringify_append_inj hv.1 hw.1 (closes_items _ _) (closes_items _ _) hcut
    obtain ⟨rfl, hrest⟩ := stringifyItems_append_inj hv.2 hw.2 htail
    exact ⟨rfl, hrest⟩

theorem stringifyFields_append_inj : ∀ {fields fields' : List (String × Json)}
    {rest rest' : List Char}, numericFields fields = true → numericFields fields' = true →
    commas (stringifyFields fields) ++ (['\x7d'] ++ rest) =
      commas (stringifyFields fields') ++ (['\x7d'] ++ rest') → fields = fields' ∧ rest = rest'
  | [], [], _, _, _, _, h => ⟨rfl, by simpa using h⟩
  | [], (_, _) :: _, _, _, _, _, h => by simp [commas, stringifyFields] at h
  | (_, _) :: _, [], _, _, _, _, h => by simp [commas, stringifyFields] at h
  | (name, value) :: fields, (name', value') :: fields', rest, rest', hv, hw, h => by
    simp only [numericFields, Bool.and_eq_true] at hv hw
    have hcut : (quote name).toList ++ (':' :: (value.stringify.toList ++
          (commas (stringifyFields fields) ++ (['\x7d'] ++ rest)))) =
        (quote name').toList ++ (':' :: (value'.stringify.toList ++
          (commas (stringifyFields fields') ++ (['\x7d'] ++ rest')))) := by
      simpa [commas, stringifyFields] using h
    obtain ⟨rfl, hvalue⟩ := quote_append_inj hcut
    simp only [List.cons.injEq, true_and] at hvalue
    obtain ⟨rfl, htail⟩ := stringify_append_inj hv.1 hw.1 (closes_fields _ _) (closes_fields _ _) hvalue
    obtain ⟨rfl, hrest⟩ := stringifyFields_append_inj hv.2 hw.2 htail
    exact ⟨rfl, hrest⟩

end

theorem stringify_injective_of_numeric {v w : Json} (hv : v.numeric = true) (hw : w.numeric = true)
    (h : v.stringify = w.stringify) : v = w := by
  have hlists : v.stringify.toList ++ [] = w.stringify.toList ++ [] := by rw [h]
  exact (stringify_append_inj hv hw (by simp [Closes]) (by simp [Closes]) hlists).1

theorem stringify_injective {v w : Json} (hv : v.numberFree = true) (hw : w.numberFree = true)
    (h : v.stringify = w.stringify) : v = w :=
  stringify_injective_of_numeric (numeric_of_numberFree hv) (numeric_of_numberFree hw) h

end InboxServer.Json
