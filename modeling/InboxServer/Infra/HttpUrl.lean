import Mathlib

/-!
# Authorities of HTTP URLs

How the URL standard reads `http://<authority>…` into a host name and a port: what it strips, where
the authority ends, how the host is told from the port, and the host parser. The tables of Unicode
and the IPv6 parser are parameters (`Tables`); `Tables.LowersAscii` is what the standard says of
domains without them.

* `Tables.hostParser_dotted` — a canonical dotted IPv4 address is read as itself
* `Tables.hostParser_eq_self` — which domains are
-/

namespace Infra.HttpUrl

/-! ## The host parser -/

/-- What the host parser takes from elsewhere. -/
structure Tables where
  /-- Percent-decoding, UTF-8 decoding without BOM, and Unicode ToASCII that is not strict. -/
  toAscii : List Char → Option (List Char)
  /-- The IPv6 parser with its serializer, on what stands between the brackets. -/
  ipv6 : List Char → Option (List Char)

/-- The parts of a domain. -/
abbrev parts (domain : List Char) : List (List Char) := domain.splitOn '.'

/-- Whether a label starts with `xn--`, in any case. -/
def isPunycoded : List Char → Bool
  | x :: n :: '-' :: '-' :: _ => x.toLower = 'x' && n.toLower = 'n'
  | _ => false

/--
A domain of ASCII with no label to decode is put in lower case, and nothing else happens to it.
-/
def Tables.LowersAscii (tables : Tables) : Prop :=
  ∀ domain : List Char, domain ≠ [] → (∀ c ∈ domain, c.toNat < 128 ∧ c ≠ '%') →
    (∀ label ∈ parts domain, isPunycoded label = false) →
    tables.toAscii domain = some (domain.map Char.toLower)

/-- The forbidden domain code points. -/
def isForbidden (c : Char) : Bool :=
  c.toNat ≤ 0x20 || c ∈ ['#', '/', ':', '<', '>', '?', '@', '[', '\\', ']', '^', '|', '%', '\x7f']

/-- The digit that a character stands for, in the radices up to 16. -/
def digitValue (c : Char) : Option Nat :=
  if c.isDigit then some (c.toNat - 48)
  else if 'a' ≤ c.toLower ∧ c.toLower ≤ 'f' then some (c.toLower.toNat - 87)
  else none

/-- The number that digits of a radix write after `n`. -/
def readRadix (radix : Nat) : Nat → List Char → Option Nat
  | n, [] => some n
  | n, c :: text =>
    match digitValue c with
    | some d => if d < radix then readRadix radix (radix * n + d) text else none
    | none => none

/-- The radix of an IPv4 number, and its digits. -/
def splitRadix : List Char → Nat × List Char
  | '0' :: c :: text => if c.toLower = 'x' then (16, text) else (8, c :: text)
  | text => (10, text)

/-- The IPv4 number parser. -/
def ipv4Number (text : List Char) : Option Nat :=
  if text = [] then none else readRadix (splitRadix text).1 0 (splitRadix text).2

/-- The parts without the last, where that is empty and not the only one. -/
def trimParts (l : List (List Char)) : List (List Char) :=
  if l.getLast? = some [] ∧ l.length > 1 then l.dropLast else l

/-- The value of the numbers of an IPv4 address, the last of which fills the rest. -/
def ipv4Value (numbers : List Nat) : Option Nat :=
  match numbers.reverse with
  | [] => none
  | last :: others =>
    if others.any (· > 255) || last ≥ 256 ^ (5 - numbers.length) then none
    else some (last + ((numbers.dropLast.zipIdx).map fun n => n.1 * 256 ^ (3 - n.2)).sum)

/-- The IPv4 parser. -/
def ipv4 (text : List Char) : Option Nat :=
  if (trimParts (parts text)).length > 4 then none
  else ((trimParts (parts text)).mapM ipv4Number).bind ipv4Value

/-- The IPv4 serializer. -/
def dotted (a b c d : Nat) : List Char :=
  ['.'].intercalate [Nat.toDigits 10 a, Nat.toDigits 10 b, Nat.toDigits 10 c, Nat.toDigits 10 d]

def serializeIpv4 (address : Nat) : List Char :=
  dotted (address / 256 ^ 3 % 256) (address / 256 ^ 2 % 256) (address / 256 % 256) (address % 256)

/-- The ends-in-a-number checker. -/
def endsInNumber (domain : List Char) : Bool :=
  match (if (parts domain).getLast? = some [] then (parts domain).dropLast else parts domain).getLast?
    with
  | none => false
  | some last => (last ≠ [] && last.all Char.isDigit) || (ipv4Number last).isSome

/-- The host parser of a special scheme, with the serialization of what it gives. -/
def Tables.hostParser (tables : Tables) (host : List Char) : Option (List Char) :=
  if host.head? = some '[' then
    if host.getLast? = some ']' then
      (tables.ipv6 (host.drop 1).dropLast).map fun address => '[' :: address ++ [']']
    else none
  else
    (tables.toAscii host).bind fun domain =>
      if domain = [] || domain.any isForbidden then none
      else if endsInNumber domain then (ipv4 domain).map serializeIpv4
      else some domain

/-! ### Numbers -/

theorem digitValue_digit {c : Char} (h : c.isDigit = true) : digitValue c = some (c.toNat - 48) :=
  if_pos h

theorem isDigit_bounds {c : Char} (h : c.isDigit = true) : 48 ≤ c.toNat ∧ c.toNat ≤ 57 :=
  Char.isDigit_iff_toNat.mp h

/-- A digit of a value below ten is a decimal one. -/
theorem isDigit_of_digitValue {c : Char} {d : Nat} (h : digitValue c = some d) (hd : d < 10) :
    c.isDigit = true := by
  unfold digitValue at h
  split at h
  · assumption
  · split at h
    · next hletter =>
      -- a letter is worth ten at least
      have hlow : 'a'.toNat ≤ c.toLower.toNat := hletter.1
      have ha : 'a'.toNat = 97 := rfl
      simp only [Option.some.injEq] at h
      omega
    · cases h

/-- Decimal digits are a number in radix 10. -/
theorem readRadix_ten {text : List Char} (n : Nat) (h : text.all Char.isDigit = true) :
    readRadix 10 n text = some (Nat.ofDigitChars 10 text n) := by
  induction text generalizing n with
  | nil => simp [readRadix]
  | cons c text ih =>
    rw [List.all_cons, Bool.and_eq_true] at h
    have hbounds := isDigit_bounds h.1
    rw [readRadix, digitValue_digit h.1]
    dsimp only
    rw [if_pos (by omega), ih _ h.2, Nat.ofDigitChars_cons]
    rfl

/-- A number in a radix up to 10 is written in decimal digits. -/
theorem all_isDigit_of_readRadix {radix n m : Nat} {text : List Char} (hradix : radix ≤ 10)
    (h : readRadix radix n text = some m) : text.all Char.isDigit = true := by
  induction text generalizing n with
  | nil => rfl
  | cons c text ih =>
    rw [readRadix] at h
    split at h
    · next d hd =>
      split at h
      · next hlt =>
        rw [List.all_cons, isDigit_of_digitValue hd (by omega), ih h]
        rfl
      · cases h
    · cases h

/-- The digits of a number have no `0` in front. -/
theorem head?_toDigits {n : Nat} (hn : 0 < n) : (Nat.toDigits 10 n).head? ≠ some '0' := by
  induction n using Nat.strongRecOn with
  | ind n ih =>
    rcases Nat.lt_or_ge n 10 with hlt | hge
    · rw [Nat.toDigits_of_lt_base hlt]
      simpa using hn.ne'
    · rw [Nat.toDigits_of_base_le (by omega) hge, List.head?_append_of_ne_nil _ Nat.toDigits_ne_nil]
      exact ih (n / 10) (by omega) (by omega)

theorem splitRadix_toDigits (n : Nat) : splitRadix (Nat.toDigits 10 n) = (10, Nat.toDigits 10 n) := by
  rcases Nat.eq_zero_or_pos n with rfl | hn
  · rfl
  · unfold splitRadix
    split
    · next c text h => exact absurd (by rw [h]; rfl) (head?_toDigits hn)
    · rfl

theorem ipv4Number_toDigits (n : Nat) : ipv4Number (Nat.toDigits 10 n) = some n := by
  have hall : (Nat.toDigits 10 n).all Char.isDigit = true :=
    List.all_eq_true.mpr fun c hc => Nat.isDigit_of_mem_toDigits (by omega) (by omega) hc
  rw [ipv4Number, if_neg Nat.toDigits_ne_nil, splitRadix_toDigits, readRadix_ten 0 hall,
    Nat.ofDigitChars_ten_toDigits]

/-! ### Dotted addresses -/

/-- The parts of a dotted address are its numbers. -/
theorem parts_dotted (a b c d : Nat) :
    parts (dotted a b c d) =
      [Nat.toDigits 10 a, Nat.toDigits 10 b, Nat.toDigits 10 c, Nat.toDigits 10 d] := by
  refine List.splitOn_intercalate '.' (fun l hl hdot => ?_) (by simp)
  have hdigit : Char.isDigit '.' = true := by
    simp only [List.mem_cons, List.not_mem_nil, or_false] at hl
    rcases hl with rfl | rfl | rfl | rfl <;>
      exact Nat.isDigit_of_mem_toDigits (by omega) (by omega) hdot
  cases hdigit

theorem mem_dotted {a b c d : Nat} {x : Char} (h : x ∈ dotted a b c d) :
    x.isDigit = true ∨ x = '.' := by
  simp only [dotted, List.intercalate, List.intersperse, List.flatten_cons, List.flatten_nil,
    List.mem_append, List.mem_cons, List.not_mem_nil, or_false] at h
  rcases h with h | rfl | h | rfl | h | rfl | h
  all_goals first | exact Or.inr rfl | skip
  all_goals exact Or.inl (Nat.isDigit_of_mem_toDigits (by omega) (by omega) h)

theorem dotted_ne_nil (a b c d : Nat) : dotted a b c d ≠ [] := by
  intro h
  have := parts_dotted a b c d
  rw [h] at this
  simp at this

/-- A dotted address is read as its number. -/
theorem ipv4_dotted {a b c d : Nat} (ha : a < 256) (hb : b < 256) (hc : c < 256) (hd : d < 256) :
    ipv4 (dotted a b c d) = some (d + (a * 256 ^ 3 + b * 256 ^ 2 + c * 256)) := by
  have htrim : trimParts (parts (dotted a b c d)) = parts (dotted a b c d) := by
    rw [parts_dotted]
    exact if_neg fun h => Nat.toDigits_ne_nil (Option.some.inj h.1)
  rw [ipv4, htrim, parts_dotted]
  simp only [List.length_cons, List.length_nil, List.mapM_cons, List.mapM_nil, ipv4Number_toDigits]
  simp [ipv4Value]
  omega

/-- An address is the one that its serialization reads. -/
theorem serializeIpv4_dotted {a b c d : Nat} (ha : a < 256) (hb : b < 256) (hc : c < 256)
    (hd : d < 256) :
    serializeIpv4 (d + (a * 256 ^ 3 + b * 256 ^ 2 + c * 256)) = dotted a b c d := by
  unfold serializeIpv4
  congr 1 <;> omega

/-- The label that the ends-in-a-number checker looks at. -/
theorem endsInNumber_eq {domain last : List Char} (h : (parts domain).getLast? = some last)
    (hlast : last ≠ []) :
    endsInNumber domain = (last.all Char.isDigit || (ipv4Number last).isSome) := by
  unfold endsInNumber
  rw [if_neg (by rw [h]; simpa using hlast), h]
  simp [hlast]

theorem endsInNumber_dotted (a b c d : Nat) : endsInNumber (dotted a b c d) = true := by
  rw [endsInNumber_eq (by rw [parts_dotted]; rfl) Nat.toDigits_ne_nil, ipv4Number_toDigits]
  simp

/-! ### Names -/

/-- The characters of a name in lower case, and of a dotted address. -/
def isHostChar (c : Char) : Bool := c.isLower || c.isDigit || c = '-' || c = '_' || c = '.'

/-- What the host parser and the authority do with a character of a name. -/
structure PlainChar (c : Char) : Prop where
  ascii : c.toNat < 128
  lower : c.toLower = c
  allowed : isForbidden c = false

instance (c : Char) : Decidable (PlainChar c) :=
  decidable_of_iff (c.toNat < 128 ∧ c.toLower = c ∧ isForbidden c = false)
    ⟨fun ⟨h1, h2, h3⟩ => ⟨h1, h2, h3⟩, fun ⟨h1, h2, h3⟩ => ⟨h1, h2, h3⟩⟩

/-- The characters of host names mean nothing else in a URL. -/
theorem plainChar_of_isHostChar {c : Char} (h : isHostChar c = true) : PlainChar c := by
  have hall : ∀ n < 128, isHostChar (Char.ofNat n) = true → PlainChar (Char.ofNat n) := by
    decide +kernel
  have hlt : c.toNat < 128 := by
    simp only [isHostChar, Bool.or_eq_true, decide_eq_true_eq] at h
    rcases h with (((h | h) | rfl) | rfl) | rfl
    · simp only [Char.isLower, ge_iff_le, Bool.and_eq_true, decide_eq_true_eq] at h
      have hhigh : c.toNat ≤ 'z'.toNat := h.2
      have hz : 'z'.toNat = 122 := rfl
      omega
    · have := isDigit_bounds h
      omega
    all_goals decide
  have hc : Char.ofNat c.toNat = c := Char.ofNat_toNat c
  rw [← hc] at h ⊢
  exact hall c.toNat hlt h

theorem ne_of_isHostChar {c d : Char} (h : isHostChar c = true) (hd : isForbidden d = true) :
    c ≠ d := by
  rintro rfl
  rw [(plainChar_of_isHostChar h).allowed] at hd
  cases hd

/-- A label that is a number in radix 16. -/
def isHexNumber : List Char → Bool
  | '0' :: x :: digits => x.toLower = 'x' && digits.all fun c => (digitValue c).isSome
  | _ => false

/-- No digit has a value above fifteen. -/
theorem digitValue_lt {c : Char} {d : Nat} (h : digitValue c = some d) : d < 16 := by
  unfold digitValue at h
  split at h
  · next hdigit =>
    have := isDigit_bounds hdigit
    simp only [Option.some.injEq] at h
    omega
  · split at h
    · next hletter =>
      have hhigh : c.toLower.toNat ≤ 'f'.toNat := hletter.2
      have hf : 'f'.toNat = 102 := rfl
      simp only [Option.some.injEq] at h
      omega
    · cases h

/-- A hexadecimal number is read exactly where all its digits are hexadecimal. -/
theorem isSome_readRadix_sixteen (n : Nat) (text : List Char) :
    (readRadix 16 n text).isSome = text.all fun c => (digitValue c).isSome := by
  induction text generalizing n with
  | nil => rfl
  | cons c text ih =>
    rw [readRadix, List.all_cons]
    cases hc : digitValue c with
    | none => rfl
    | some d =>
      dsimp only
      rw [if_pos (digitValue_lt hc), ih]
      rfl

/-- A label that is not all digits is a number only in radix 16. -/
theorem isSome_ipv4Number {label : List Char} (h : label.all Char.isDigit = false) :
    (ipv4Number label).isSome = isHexNumber label := by
  have hne : label ≠ [] := by
    rintro rfl
    cases h
  have hsmall : ∀ radix ≤ 10, ∀ digits, digits.all Char.isDigit = false →
      readRadix radix 0 digits = none := by
    intro radix hradix digits hdigits
    rw [← Option.not_isSome_iff_eq_none]
    intro hsome
    obtain ⟨m, hm⟩ := Option.isSome_iff_exists.mp hsome
    rw [all_isDigit_of_readRadix hradix hm] at hdigits
    cases hdigits
  rw [ipv4Number, if_neg hne]
  unfold splitRadix isHexNumber
  split
  · next x digits =>
    by_cases hx : x.toLower = 'x'
    · rw [if_pos hx]
      simp [hx, isSome_readRadix_sixteen]
    · rw [if_neg hx]
      dsimp only
      rw [hsmall 8 (by omega) _ (by simpa using h)]
      simp [hx]
  · next hform =>
    dsimp only
    rw [hsmall 10 (by omega) _ h]
    rfl

/-- A name of labels in lower case, the last of which is not all digits. -/
structure IsName (host : List Char) : Prop where
  chars : ∀ c ∈ host, isHostChar c = true
  labels : [] ∉ parts host
  last : ∀ label, (parts host).getLast? = some label → label.all Char.isDigit = false

/-- A canonical dotted IPv4 address. -/
def IsDotted (host : List Char) : Prop :=
  ∃ a b c d, a < 256 ∧ b < 256 ∧ c < 256 ∧ d < 256 ∧ host = dotted a b c d

/-- A name whose last label the standard takes for a number. -/
def EndsInHex (host : List Char) : Prop :=
  ∃ label, (parts host).getLast? = some label ∧ isHexNumber label = true

namespace Tables

variable {tables : Tables} {host : List Char}

theorem isHostChar_of_mem_dotted {a b c d : Nat} {x : Char} (h : x ∈ dotted a b c d) :
    isHostChar x = true := by
  rcases mem_dotted h with h | rfl
  · simp [isHostChar, h]
  · rfl

/-- The host parser on plain characters that Unicode ToASCII leaves as they are. -/
theorem hostParser_plain (hne : host ≠ []) (hchars : ∀ c ∈ host, isHostChar c = true) :
    tables.hostParser host = (tables.toAscii host).bind fun domain =>
      if domain = [] || domain.any isForbidden then none
      else if endsInNumber domain then (ipv4 domain).map serializeIpv4
      else some domain := by
  unfold hostParser
  refine if_neg fun hhead => ?_
  obtain ⟨c, text, rfl⟩ := List.exists_cons_of_ne_nil hne
  exact ne_of_isHostChar (hchars c List.mem_cons_self) rfl (Option.some.inj hhead)

theorem any_isForbidden_plain (hchars : ∀ c ∈ host, isHostChar c = true) :
    host.any isForbidden = false := by
  rw [List.any_eq_false]
  intro c hc
  rw [(plainChar_of_isHostChar (hchars c hc)).allowed]
  decide

/-- A plain host is its own ASCII form. -/
theorem toAscii_plain (htables : tables.LowersAscii) (hne : host ≠ [])
    (hchars : ∀ c ∈ host, isHostChar c = true)
    (hlabels : ∀ label ∈ parts host, isPunycoded label = false) :
    tables.toAscii host = some host := by
  rw [htables host hne (fun c hc => ⟨(plainChar_of_isHostChar (hchars c hc)).ascii, ?_⟩) hlabels]
  · congr 1
    exact (List.map_congr_left fun c hc => (plainChar_of_isHostChar (hchars c hc)).lower).trans
      (List.map_id host)
  · exact ne_of_isHostChar (hchars c hc) rfl

/-- **A canonical dotted IPv4 address is read as itself.** -/
theorem hostParser_dotted (htables : tables.LowersAscii) (h : IsDotted host) :
    tables.hostParser host = some host := by
  obtain ⟨a, b, c, d, ha, hb, hc, hd, rfl⟩ := h
  have hchars : ∀ x ∈ dotted a b c d, isHostChar x = true := fun x => isHostChar_of_mem_dotted
  have hlabels : ∀ label ∈ parts (dotted a b c d), isPunycoded label = false := by
    intro label hlabel
    have hdigit : ∀ x ∈ label, x.isDigit = true := by
      rw [parts_dotted] at hlabel
      simp only [List.mem_cons, List.not_mem_nil, or_false] at hlabel
      intro x hx
      rcases hlabel with rfl | rfl | rfl | rfl <;>
        exact Nat.isDigit_of_mem_toDigits (by omega) (by omega) hx
    unfold isPunycoded
    split
    · have hdash := hdigit '-' (by simp)
      cases hdash
    · rfl
  rw [hostParser_plain (dotted_ne_nil a b c d) hchars,
    toAscii_plain htables (dotted_ne_nil a b c d) hchars hlabels]
  simp only [Option.bind_some, any_isForbidden_plain hchars, dotted_ne_nil, decide_false,
    Bool.or_self, Bool.false_eq_true, if_false, endsInNumber_dotted, if_true,
    ipv4_dotted ha hb hc hd, Option.map_some, serializeIpv4_dotted ha hb hc hd]

/-- A name ends in a number only as a hexadecimal one. -/
theorem endsInNumber_name (h : IsName host) :
    endsInNumber host = true ↔ EndsInHex host := by
  obtain ⟨last, hlast⟩ : ∃ last, (parts host).getLast? = some last :=
    ⟨_, List.getLast?_eq_some_getLast (List.splitOn_ne_nil _ _)⟩
  have hne : last ≠ [] := by
    rintro rfl
    exact h.labels (List.mem_of_getLast? hlast)
  rw [endsInNumber_eq hlast hne, h.last last hlast, isSome_ipv4Number (h.last last hlast)]
  constructor
  · intro hhex
    exact ⟨last, hlast, by simpa using hhex⟩
  · rintro ⟨label, hlabel, hhex⟩
    obtain rfl : last = label := by simpa [hlast] using hlabel
    simpa using hhex

theorem not_isName_dotted {a b c d : Nat} : ¬IsName (dotted a b c d) := by
  intro h
  have hlast := h.last (Nat.toDigits 10 d) (by rw [parts_dotted]; rfl)
  have hall : (Nat.toDigits 10 d).all Char.isDigit = true :=
    List.all_eq_true.mpr fun c hc => Nat.isDigit_of_mem_toDigits (by omega) (by omega) hc
  rw [hall] at hlast
  cases hlast

/-- **Which names are read as themselves.** -/
theorem hostParser_name (h : IsName host) :
    tables.hostParser host = some host ↔ ¬EndsInHex host ∧ tables.toAscii host = some host := by
  have hne : host ≠ [] := by
    rintro rfl
    exact h.labels (by simp)
  rw [hostParser_plain hne h.chars, ← endsInNumber_name h]
  constructor
  · intro hparse
    obtain ⟨domain, hdomain, hrest⟩ := Option.bind_eq_some_iff.mp hparse
    split at hrest
    · cases hrest
    · split at hrest
      · -- an address is written with a number at its end
        obtain ⟨address, -, rfl⟩ := Option.map_eq_some_iff.mp hrest
        exact absurd h not_isName_dotted
      · next hnumber =>
        obtain rfl := Option.some.inj hrest
        exact ⟨hnumber, hdomain⟩
  · rintro ⟨hnumber, hascii⟩
    rw [hascii]
    simp only [Option.bind_some, any_isForbidden_plain h.chars, hne, decide_false, Bool.or_self,
      Bool.false_eq_true, if_false, if_neg hnumber]

end Tables

/-! ## The authority -/

/-- C0 control or space. -/
def isControlOrSpace (c : Char) : Bool := c.toNat ≤ 0x20

def isSlash (c : Char) : Bool := c = '/' || c = '\\'

/-- What ends the authority of a special scheme. -/
def endsAuthority (c : Char) : Bool := c = '/' || c = '\\' || c = '?' || c = '#'

/-- The host state: what comes before a colon that is not in brackets, and what after it. -/
def splitHost : Bool → List Char → List Char × Option (List Char)
  | _, [] => ([], none)
  | inside, c :: text =>
    if c = ':' ∧ inside = false then ([], some text)
    else
      let rest := splitHost (if c = '[' then true else if c = ']' then false else inside) text
      (c :: rest.1, rest.2)

/-- The port state; the default port, like none, is null. -/
def readPort (digits : List Char) : Option (Option Nat) :=
  if digits = [] then some none
  else if !digits.all Char.isDigit then none
  else if Nat.ofDigitChars 10 digits 0 > 65535 then none
  else if Nat.ofDigitChars 10 digits 0 = 80 then some none
  else some (some (Nat.ofDigitChars 10 digits 0))

/-- What an authority says after its credentials; it says something, if it has any. -/
def dropCredentials (authority : List Char) : Option (List Char) :=
  if '@' ∈ authority then
    if authority.rtakeWhile (· ≠ '@') = [] then none else some (authority.rtakeWhile (· ≠ '@'))
  else some authority

/-- `url.hostname` and `url.port`, which is null for the default port. -/
structure Parsed where
  hostname : List Char
  port : Option Nat
  deriving DecidableEq

/-- The host and the port of an authority; both have to be read. -/
def Tables.readEndpoint (tables : Tables) (text : List Char) : Option Parsed :=
  let split := splitHost false text
  if split.1 = [] then none
  else
    (tables.hostParser split.1).bind fun hostname =>
      (readPort (split.2.getD [])).map fun port => { hostname, port }

/-- The text in which the authority starts: without what is stripped, and without slashes. -/
def cleaned (input : List Char) : List Char :=
  ((input.rdropWhile isControlOrSpace).filter fun c => c ∉ ['\t', '\n', '\r']).dropWhile isSlash

/-- `new URL("http://" + input)`, as far as its host and its port go. -/
def Tables.newHttpUrl (tables : Tables) (input : List Char) : Option Parsed :=
  (dropCredentials ((cleaned input).takeWhile fun c => !endsAuthority c)).bind tables.readEndpoint

/-! ### What an authority says -/

/-- A port that is read is a number up to 65535, other than the default one. -/
theorem readPort_eq_some {digits : List Char} {port : Nat} :
    readPort digits = some (some port) ↔
      digits ≠ [] ∧ digits.all Char.isDigit = true ∧ Nat.ofDigitChars 10 digits 0 = port ∧
        port ≤ 65535 ∧ port ≠ 80 := by
  unfold readPort
  split
  · next hnil => simp [hnil]
  · next hne =>
    split
    · next hall =>
      simp only [Bool.not_eq_true'] at hall
      simp [hall]
    · next hall =>
      simp only [Bool.not_eq_true', Bool.not_eq_false] at hall
      split
      · simp only [reduceCtorEq, false_iff, not_and]
        rintro - - rfl
        omega
      · split
        · next heighty =>
          simp only [Option.some.injEq, reduceCtorEq, false_iff, not_and]
          rintro - - rfl - h
          exact h heighty
        · simp only [Option.some.injEq]
          constructor
          · rintro rfl
            exact ⟨hne, hall, rfl, by omega, by assumption⟩
          · rintro ⟨-, -, hport, -⟩
            exact hport

/-- The host and the port are on both sides of a colon. -/
theorem splitHost_eq {inside : Bool} {text host port : List Char}
    (h : splitHost inside text = (host, some port)) : text = host ++ ':' :: port := by
  induction text generalizing inside host with
  | nil => cases h
  | cons c text ih =>
    rw [splitHost] at h
    split at h
    · next hc =>
      cases h
      rw [hc.1]
      rfl
    · obtain ⟨hhost, hport⟩ := Prod.mk.inj h
      rw [← hhost, List.cons_append]
      exact congrArg _ (ih (Prod.ext rfl hport))

/-- A colon ends a host that has none, and no brackets. -/
theorem splitHost_append {host : List Char} (port : List Char)
    (h : ∀ c ∈ host, c ≠ ':' ∧ c ≠ '[' ∧ c ≠ ']') :
    splitHost false (host ++ ':' :: port) = (host, some port) := by
  induction host with
  | nil => rfl
  | cons c host ih =>
    obtain ⟨hcolon, hopen, hclose⟩ := h c List.mem_cons_self
    rw [List.cons_append, splitHost, if_neg fun hc => hcolon hc.1]
    dsimp only
    rw [if_neg hopen, if_neg hclose, ih fun d hd => h d (List.mem_cons_of_mem _ hd)]

/-- How a text of an authority and no more than backslashes around it is put together. -/
structure Layout (input lead host digits tail : List Char) : Prop where
  eq : input = lead ++ ((host ++ ':' :: digits) ++ tail)
  leads : ∀ c ∈ lead, c = '\\'
  host_ne : host ≠ []
  no_slash : '\\' ∉ host
  colon : splitHost false (host ++ ':' :: digits) = (host, some digits)
  digits_ne : digits ≠ []
  all_digits : digits.all Char.isDigit = true
  ends : (∀ c ∈ tail, isControlOrSpace c = true) ∨ ∃ path, tail = '\\' :: path

/-- A text without credentials, slashes, a query, a fragment, or tabs and newlines. -/
def IsBare (input : List Char) : Prop :=
  ∀ c ∈ input, c ≠ '@' ∧ c ≠ '/' ∧ c ≠ '?' ∧ c ≠ '#' ∧ c ∉ ['\t', '\n', '\r']

theorem IsBare.endsAuthority_iff {input : List Char} (h : IsBare input) {c : Char} (hc : c ∈ input) :
    endsAuthority c = true ↔ c = '\\' := by
  obtain ⟨-, hslash, hquery, hfragment, -⟩ := h c hc
  simp [endsAuthority, hslash, hquery, hfragment]

theorem IsBare.isSlash_iff {input : List Char} (h : IsBare input) {c : Char} (hc : c ∈ input) :
    isSlash c = true ↔ c = '\\' := by
  simp [isSlash, (h c hc).2.1]

theorem IsBare.filter_eq {input : List Char} (h : IsBare input) :
    (input.filter fun c => c ∉ ['\t', '\n', '\r']) = input :=
  List.filter_eq_self.mpr fun c hc => decide_eq_true (h c hc).2.2.2.2

/-- What is dropped at the end ends at a character that is kept. -/
theorem rdropWhile_append_cons {p : Char → Bool} {c : Char} (hc : p c = false)
    (before after : List Char) :
    (before ++ c :: after).rdropWhile p = before ++ c :: after.rdropWhile p := by
  induction after using List.reverseRecOn with
  | nil => rw [List.rdropWhile_concat_neg _ _ _ (by simp [hc]), List.rdropWhile_nil]
  | append_singleton after d ih =>
    rw [← List.cons_append, ← List.append_assoc, List.rdropWhile_concat, List.rdropWhile_concat]
    split
    · exact ih
    · simp

/-- The authority of a text, without its credentials. -/
abbrev authority (input : List Char) : List Char :=
  (cleaned input).takeWhile fun c => !endsAuthority c

theorem IsBare.cleaned_eq {input : List Char} (h : IsBare input) :
    cleaned input = (input.rdropWhile isControlOrSpace).dropWhile isSlash := by
  have hsub : IsBare (input.rdropWhile isControlOrSpace) :=
    fun c hc => h c ((List.rdropWhile_prefix _ _).subset hc)
  rw [cleaned, hsub.filter_eq]

/-- An authority is laid out in the text that it is read from. -/
theorem IsBare.layout {input host digits : List Char} (h : IsBare input)
    (hsplit : splitHost false (authority input) = (host, some digits)) (hne : host ≠ [])
    (hdigits : digits ≠ []) (hall : digits.all Char.isDigit = true) :
    ∃ lead tail, Layout input lead host digits tail := by
  have htext := splitHost_eq hsplit
  have hstripped : input.rdropWhile isControlOrSpace ++ input.rtakeWhile isControlOrSpace = input :=
    List.rdropWhile_append_rtakeWhile
  set stripped := input.rdropWhile isControlOrSpace
  have hmem : ∀ c ∈ stripped, c ∈ input := fun c hc => by
    rw [← hstripped]
    exact List.mem_append_left _ hc
  have hclean : cleaned input = stripped.dropWhile isSlash := h.cleaned_eq
  set clean := cleaned input
  have hleads : stripped.takeWhile isSlash ++ clean = stripped := by
    rw [hclean]
    exact List.takeWhile_append_dropWhile
  have hrest : authority input ++ clean.dropWhile (fun c => !endsAuthority c) = clean :=
    List.takeWhile_append_dropWhile
  set rest := clean.dropWhile fun c => !endsAuthority c with hrestdef
  refine ⟨stripped.takeWhile isSlash, rest ++ input.rtakeWhile isControlOrSpace,
    ?_, ?_, hne, ?_, ?_, hdigits, hall, ?_⟩
  · rw [← htext, ← List.append_assoc, ← List.append_assoc, List.append_assoc _ (authority input),
      hrest, hleads, hstripped]
  · intro c hc
    refine (h.isSlash_iff (hmem c ?_)).mp (List.mem_takeWhile_imp hc)
    rw [← hleads]
    exact List.mem_append_left _ hc
  · intro hslash
    have hauthority : '\\' ∈ authority input := by
      rw [htext]
      exact List.mem_append_left _ hslash
    have := List.mem_takeWhile_imp hauthority
    cases this
  · rw [← htext]
    exact hsplit
  · rcases hcase : rest with _ | ⟨c, path⟩
    · exact Or.inl fun c hc => List.mem_rtakeWhile_imp hc
    · right
      have hends : endsAuthority c = true := by
        have := List.head?_dropWhile_not (fun c => !endsAuthority c) clean
        rw [← hrestdef, hcase] at this
        simpa using this
      have hinput : c ∈ input := by
        refine hmem c ?_
        rw [← hleads, ← hrest, hcase]
        simp
      exact ⟨path ++ input.rtakeWhile isControlOrSpace, by
        rw [(h.endsAuthority_iff hinput).mp hends, List.cons_append]⟩

/-- A text that is laid out around an authority has that authority. -/
theorem Layout.authority_eq {input lead host digits tail : List Char}
    (h : Layout input lead host digits tail) (hbare : IsBare input) :
    authority input = host ++ ':' :: digits := by
  have hmem : ∀ c ∈ host ++ ':' :: digits, c ∈ input := by
    intro c hc
    rw [h.eq]
    exact List.mem_append_right _ (List.mem_append_left _ hc)
  have hplain : ∀ c ∈ host ++ ':' :: digits, c ≠ '\\' := by
    rintro c hc rfl
    rcases List.mem_append.mp hc with hc | hc
    · exact h.no_slash hc
    · rcases List.mem_cons.mp hc with hc | hc
      · cases hc
      · have := List.all_eq_true.mp h.all_digits _ hc
        cases this
  -- what is stripped at the end leaves nothing after the authority, or a backslash and a path
  obtain ⟨rest, hstripped, hrest⟩ : ∃ rest,
      input.rdropWhile isControlOrSpace = lead ++ ((host ++ ':' :: digits) ++ rest) ∧
        (rest = [] ∨ ∃ path, rest = '\\' :: path) := by
    rcases h.ends with hends | ⟨path, htail⟩
    · refine ⟨[], ?_, Or.inl rfl⟩
      obtain ⟨init, last, hdigits⟩ : ∃ init last, digits = init ++ [last] :=
        ⟨_, _, (List.dropLast_append_getLast h.digits_ne).symm⟩
      have hlast : isControlOrSpace last = false := by
        have hdigit := List.all_eq_true.mp h.all_digits last (by simp [hdigits])
        have := isDigit_bounds hdigit
        simp only [isControlOrSpace, decide_eq_false_iff_not]
        omega
      have hnil : tail.rdropWhile isControlOrSpace = [] := List.rdropWhile_eq_nil_iff.mpr hends
      have hinput : input = (lead ++ (host ++ ':' :: init)) ++ last :: tail := by
        rw [h.eq, hdigits]
        simp
      rw [hinput, rdropWhile_append_cons hlast, hnil, hdigits]
      simp
    · refine ⟨'\\' :: path.rdropWhile isControlOrSpace, ?_, Or.inr ⟨_, rfl⟩⟩
      rw [h.eq, htail, ← List.append_assoc, rdropWhile_append_cons (by decide), List.append_assoc]
  rw [authority, hbare.cleaned_eq, hstripped,
    List.dropWhile_append_of_pos fun c hc => by rw [h.leads c hc]; rfl]
  obtain ⟨c, host', hhost⟩ := List.exists_cons_of_ne_nil h.host_ne
  have hc : c ∈ host ++ ':' :: digits := by rw [hhost]; exact List.mem_cons_self
  have hstart : ((host ++ ':' :: digits) ++ rest).dropWhile isSlash =
      (host ++ ':' :: digits) ++ rest := by
    rw [hhost, List.cons_append, List.cons_append]
    exact List.dropWhile_cons_of_neg fun hslash =>
      hplain c hc ((hbare.isSlash_iff (hmem c hc)).mp hslash)
  have hinside : ∀ d ∈ host ++ ':' :: digits, (!endsAuthority d) = true := by
    intro d hd
    rw [Bool.not_eq_true', Bool.eq_false_iff]
    exact fun hends => hplain d hd ((hbare.endsAuthority_iff (hmem d hd)).mp hends)
  rw [hstart, List.takeWhile_append_of_pos hinside]
  rcases hrest with rfl | ⟨path, rfl⟩
  · simp
  · rw [List.takeWhile_cons_of_neg (by decide), List.append_nil]

namespace Tables

variable {tables : Tables} {input : List Char} {parsed : Parsed} {port : Nat}

/-- An endpoint is read from a host that parses and a port that is read. -/
theorem readEndpoint_eq_some {text hostname : List Char} :
    tables.readEndpoint text = some ⟨hostname, some port⟩ ↔
      ∃ host digits, splitHost false text = (host, some digits) ∧ host ≠ [] ∧
        tables.hostParser host = some hostname ∧ readPort digits = some (some port) := by
  unfold readEndpoint
  constructor
  · intro h
    dsimp only at h
    split at h
    · cases h
    · next hne =>
      obtain ⟨name, hname, hrest⟩ := Option.bind_eq_some_iff.mp h
      obtain ⟨p, hp, hparsed⟩ := Option.map_eq_some_iff.mp hrest
      cases hparsed
      cases hsplit : (splitHost false text).2 with
      | none =>
        rw [hsplit] at hp
        cases hp
      | some digits =>
        rw [hsplit] at hp
        exact ⟨_, digits, Prod.ext rfl hsplit, hne, hname, hp⟩
  · rintro ⟨host, digits, hsplit, hne, hname, hport⟩
    simp [hsplit, hne, hname, hport]

/-- **When a bare text is read as a host and a port.** -/
theorem newHttpUrl_eq_some (hbare : IsBare input) {hostname : List Char} :
    tables.newHttpUrl input = some ⟨hostname, some port⟩ ↔
      ∃ lead host digits tail, Layout input lead host digits tail ∧
        tables.hostParser host = some hostname ∧ Nat.ofDigitChars 10 digits 0 = port ∧
        port ≤ 65535 ∧ port ≠ 80 := by
  have hcredentials : dropCredentials (authority input) = some (authority input) := by
    refine if_neg fun hat => ?_
    have hinput : '@' ∈ input := by
      have hclean := (List.takeWhile_prefix _).subset hat
      rw [hbare.cleaned_eq] at hclean
      exact (List.rdropWhile_prefix _ _).subset ((List.dropWhile_suffix _).subset hclean)
    exact (hbare _ hinput).1 rfl
  have hparse : tables.newHttpUrl input = tables.readEndpoint (authority input) := by
    rw [newHttpUrl, hcredentials]
    rfl
  rw [hparse, readEndpoint_eq_some]
  constructor
  · rintro ⟨host, digits, hsplit, hne, hname, hport⟩
    obtain ⟨hdigits, hall, hvalue, hle, heighty⟩ := readPort_eq_some.mp hport
    obtain ⟨lead, tail, hlayout⟩ := hbare.layout hsplit hne hdigits hall
    exact ⟨lead, host, digits, tail, hlayout, hname, hvalue, hle, heighty⟩
  · rintro ⟨lead, host, digits, tail, hlayout, hname, hvalue, hle, heighty⟩
    refine ⟨host, digits, ?_, hlayout.host_ne, hname,
      readPort_eq_some.mpr ⟨hlayout.digits_ne, hlayout.all_digits, hvalue, hle, heighty⟩⟩
    rw [hlayout.authority_eq hbare]
    exact hlayout.colon

end Tables

end Infra.HttpUrl
