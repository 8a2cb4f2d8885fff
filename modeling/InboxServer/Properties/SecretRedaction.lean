import InboxServer.Domain.JobFailure

/-!
# What a stored failure says of a secret

Two runs of `classifyJobFailure` over messages that differ in the value of one secret field.

* `failure_hides_iff` — the stored failure is the same for every value exactly when the value is
  taken by the replacement, or is cut off, and the message is retryable whatever the value
-/

namespace InboxServer.Redaction

/-! ## Fields -/

/-- A secret: at least one character, and neither white space, comma nor semicolon. -/
def IsSecret (value : List Char) : Prop := value ≠ [] ∧ ∀ c ∈ value, isSecretChar c

/-- `name: ` or `name=`, after the name. -/
structure Separator where
  before : List Char
  mark : Char
  after : List Char
  mark_ok : mark = '=' ∨ mark = ':'
  before_ok : ∀ c ∈ before, isSpaceChar c
  after_ok : ∀ c ∈ after, isSpaceChar c

/-- The scheme word in any letter case, with the white space after it. -/
structure Scheme where
  word : List Char
  space : List Char
  word_ok : word.map Char.toLower = "bearer".toList
  space_ne : space ≠ []
  space_ok : ∀ c ∈ space, isSpaceChar c

/-- A text with a secret as the value of a field; what comes after it is not part of the value. -/
structure Field where
  before : List Char
  name : List Char
  separator : Separator
  scheme : Option Scheme
  after : List Char
  name_ok : ∃ k ∈ secretKeywords, name.map Char.toLower = k.toList
  scheme_ok : scheme ≠ none → name.map Char.toLower = "authorization".toList
  after_ok : ∀ c ∈ after.head?, isSecretChar c = false

namespace Field

/-- The text up to the value. -/
def opening (f : Field) : List Char :=
  f.before ++ (f.name ++ (f.separator.before ++ f.separator.mark :: f.separator.after) ++
    (match f.scheme with
      | some scheme => scheme.word ++ scheme.space
      | none => []))

/-- The text with a value in the place of the secret. -/
def message (f : Field) (value : List Char) : String :=
  String.ofList (f.opening ++ (value ++ f.after))

end Field

/-! ## The condition -/

/-- The global match of `SECRET_VALUE` takes the last character of the text. -/
def takesLast : Nat → List Char → Bool
  | 0, _ | _, [] => false
  | fuel + 1, c :: cs =>
    match matchSecret (c :: cs) with
    | some (_, rest) => rest.isEmpty || takesLast fuel rest
    | none => takesLast fuel cs

/-- The length in UTF-16 code units, which `slice` counts in. -/
def unitLength (text : List Char) : Nat :=
  (text.map fun c => if c.toNat < 0x10000 then 1 else 2).sum

/-- `message.replace(SECRET_VALUE, "$1[redacted]")` -/
def replaced (text : List Char) : List Char := replaceSecrets text.length text

namespace Field

/-- The value is taken, by a match that begins before it. -/
def Taken (f : Field) : Bool := takesLast (f.opening.length + 1) (f.opening ++ ['_'])

/-- The value comes after the first 500 units, once the secrets before it are replaced. -/
def CutOff (f : Field) : Bool := 500 < unitLength (replaced (f.opening ++ ['_']))

/-- The message is retryable by what stands around the value. -/
def RetryableAround (f : Field) : Bool := hasRetryable false f.opening || hasRetryable false f.after

end Field

/-! ## The keywords and some characters -/

/-- What is used of the keywords: none begins with a digit or ends like a scheme word. -/
theorem secretKeywords_shape : secretKeywords.all (fun k =>
    k.toList.all (fun c => !isSpaceChar c && c ≠ '=' && c ≠ ':') &&
      k.toList ≠ [] && k.toList.head? ≠ some '0' && k.toList.head? ≠ some '1' &&
      k.toList.getLast? ≠ some 'r') = true := by
  decide +kernel

/-- A keyword that makes a message retryable consists of word characters. -/
theorem retryableKeywords_shape :
    retryableKeywords.all (fun k => k.toList.all isWordChar) = true := by
  decide +kernel

theorem marks_shape :
    (isSpaceChar '=' || isSpaceChar ':' || isSpaceChar 'r' || isWordChar '=' || isWordChar ':') = false ∧
      (isSecretChar '_' && isSecretChar '0' && isSecretChar '1' && isSpaceChar ' ') = true := by
  decide +kernel

/-- A single mark is no secret, and no keyword is retryable at the end of a text. -/
theorem marks_alone : replaced ['_'] = ['_'] ∧ matchSecret ['_'] = none ∧
    startsRetryable [] = false := by
  decide +kernel

theorem keyword_chars {k : String} (hk : k ∈ secretKeywords) {c : Char} (hc : c ∈ k.toList) :
    isSpaceChar c = false ∧ c ≠ '=' ∧ c ≠ ':' := by
  have := List.all_eq_true.mp secretKeywords_shape k hk
  simp only [Bool.and_eq_true] at this
  simpa [and_assoc] using List.all_eq_true.mp this.1.1.1.1 c hc

theorem keyword_ends {k : String} (hk : k ∈ secretKeywords) :
    k.toList ≠ [] ∧ k.toList.head? ≠ some '0' ∧ k.toList.head? ≠ some '1' ∧
      k.toList.getLast? ≠ some 'r' := by
  have := List.all_eq_true.mp secretKeywords_shape k hk
  simp only [Bool.and_eq_true] at this
  exact ⟨of_decide_eq_true this.1.1.1.2, of_decide_eq_true this.1.1.2, of_decide_eq_true this.1.2,
    of_decide_eq_true this.2⟩

theorem mark_secret : ∃ c ∈ (['_'] : List Char).head?, isSecretChar c := by
  have := marks_shape.2
  simp only [Bool.and_eq_true] at this
  exact ⟨'_', rfl, this.1.1.1⟩

theorem isSecret_digit {c : Char} (hc : c = '0' ∨ c = '1') : IsSecret [c] := by
  have := marks_shape.2
  simp only [Bool.and_eq_true] at this
  refine ⟨by simp, fun x hx => ?_⟩
  obtain rfl := List.mem_singleton.mp hx
  rcases hc with rfl | rfl
  · exact this.1.1.2
  · exact this.1.2

theorem blank_space : ∀ c ∈ [' '], isSpaceChar c = true := by
  have := marks_shape.2
  simp only [Bool.and_eq_true] at this
  intro c hc
  obtain rfl := List.mem_singleton.mp hc
  exact this.2

/-- What stands before a value is neither a blank nor in a word. -/
theorem mark_visible {c : Char} (hc : c = '=' ∨ c = ':') :
    isSpaceChar c = false ∧ isWordChar c = false := by
  have := marks_shape.1
  simp only [Bool.or_eq_false_iff] at this
  rcases hc with rfl | rfl
  · exact ⟨this.1.1.1.1, this.1.2⟩
  · exact ⟨this.1.1.1.2, this.2⟩

/-! ## Keywords at the end of a text -/

/-- A keyword that starts in a text whose last character is in no keyword ends in it. -/
theorem stripKeyword_append {keyword text : List Char} (rest : List Char) (hne : text ≠ [])
    (hlast : ∀ c ∈ text.getLast?, c.toLower ∉ keyword) :
    stripKeyword keyword (text ++ rest) = (stripKeyword keyword text).map (· ++ rest) := by
  induction keyword generalizing text with
  | nil => rfl
  | cons k ks ih =>
    rcases text with _ | ⟨c, _ | ⟨d, cs⟩⟩
    · exact absurd rfl hne
    · have hc : c.toLower ≠ k := fun heq => hlast c rfl (heq ▸ List.mem_cons_self)
      rw [List.singleton_append, stripKeyword, stripKeyword, if_neg hc, if_neg hc]
      rfl
    · rw [List.cons_append, stripKeyword, stripKeyword]
      split
      · exact ih (by simp) fun x hx hmem =>
          hlast x (by simpa using hx) (List.mem_cons_of_mem k hmem)
      · rfl

/-- A keyword is found in any case of its letters. -/
theorem stripKeyword_eq_some {keyword text rest : List Char}
    (h : stripKeyword keyword text = some rest) :
    ∃ word, text = word ++ rest ∧ word.map Char.toLower = keyword := by
  induction keyword generalizing text with
  | nil => exact ⟨[], Option.some.inj h, rfl⟩
  | cons k ks ih =>
    rcases text with _ | ⟨c, cs⟩
    · cases h
    · rw [stripKeyword] at h
      split at h
      · next hc =>
        obtain ⟨word, rfl, hword⟩ := ih h
        exact ⟨c :: word, rfl, by rw [List.map_cons, hword, hc]⟩
      · cases h

/-- Something is left after the keyword: the last character at least. -/
theorem rest_ne_nil {keyword text rest : List Char} (hlast : ∀ c ∈ text.getLast?, c.toLower ∉ keyword)
    (hne : text ≠ []) (h : stripKeyword keyword text = some rest) : rest ≠ [] := by
  rintro rfl
  obtain ⟨word, rfl, rfl⟩ := stripKeyword_eq_some h
  rw [List.append_nil] at hne hlast
  exact hlast _ (List.getLast?_eq_some_getLast hne)
    (List.mem_map_of_mem (List.getLast_mem hne))

/-! ## The class -/

theorem toLower_of_not_word {c : Char} (h : isWordChar c = false) : c.toLower = c := by
  unfold Char.toLower
  refine dif_neg fun hupper => ?_
  have : c.isUpper = true := by
    simpa [Char.isUpper] using hupper
  simp [isWordChar, Char.isAlphanum, Char.isAlpha, this] at h

/-- A keyword consists of word characters. -/
theorem not_mem_retryable {c : Char} (h : isWordChar c = false) :
    ∀ k ∈ retryableKeywords, c.toLower ∉ k.toList := by
  intro k hk hmem
  rw [toLower_of_not_word h] at hmem
  have := List.all_eq_true.mp (List.all_eq_true.mp retryableKeywords_shape k hk) c hmem
  rw [h] at this
  cases this

theorem atWordEnd_append {text : List Char} (hne : text ≠ []) (rest : List Char) :
    atWordEnd (text ++ rest) = atWordEnd text := by
  rcases text with _ | ⟨c, cs⟩
  · exact absurd rfl hne
  · rfl

theorem isDigit_of_not_word {c : Char} (h : isWordChar c = false) : c.isDigit = false := by
  unfold isWordChar Char.isAlphanum at h
  simp only [Bool.or_eq_false_iff] at h
  exact h.1.2

theorem stripServerError_other {a : Char} (ha : a ≠ '5') (text : List Char) :
    stripServerError (a :: text) = none := by
  unfold stripServerError
  split
  · next heq => exact absurd (List.cons.inj heq).1 ha
  · rfl

theorem stripServerError_pair {a d : Char} (hd : d.isDigit = false) (text : List Char) :
    stripServerError (a :: d :: text) = none := by
  by_cases ha : a = '5'
  · subst ha
    rcases text with _ | ⟨e, text⟩
    · rfl
    · simp [stripServerError, hd]
  · exact stripServerError_other ha _

/-- A server error that starts in a text with no word character at its end ends in it. -/
theorem stripServerError_append {text : List Char} (rest : List Char) (hne : text ≠ [])
    (hlast : ∀ c ∈ text.getLast?, isWordChar c = false) :
    (stripServerError (text ++ rest)).any atWordEnd = (stripServerError text).any atWordEnd := by
  rcases text with _ | ⟨a, text⟩
  · exact absurd rfl hne
  by_cases ha : a = '5'
  · subst ha
    rcases text with _ | ⟨d, _ | ⟨e, _ | ⟨x, cs⟩⟩⟩
    · exact absurd (hlast '5' rfl) (by decide)
    · rw [stripServerError_pair (isDigit_of_not_word (hlast d rfl)), List.cons_append,
        List.cons_append, stripServerError_pair (isDigit_of_not_word (hlast d rfl))]
    · simp [stripServerError, isDigit_of_not_word (hlast e rfl)]
    · simp only [List.cons_append, stripServerError]
      split <;> rfl
  · rw [List.cons_append, stripServerError_other ha, stripServerError_other ha]

/-- Whether a text begins as retryable is settled before what is put behind it. -/
theorem startsRetryable_append {text : List Char} (rest : List Char) (hne : text ≠ [])
    (hlast : ∀ c ∈ text.getLast?, isWordChar c = false) :
    startsRetryable (text ++ rest) = startsRetryable text := by
  have hkeyword : ∀ k ∈ retryableKeywords, (stripKeyword k.toList (text ++ rest)).any atWordEnd =
      (stripKeyword k.toList text).any atWordEnd := by
    intro k hk
    have hnot : ∀ c ∈ text.getLast?, c.toLower ∉ k.toList := fun c hc =>
      not_mem_retryable (hlast c hc) k hk
    rw [stripKeyword_append rest hne hnot]
    rcases hstrip : stripKeyword k.toList text with _ | tail
    · rfl
    · exact atWordEnd_append (rest_ne_nil hnot hne hstrip) rest
  unfold startsRetryable
  rw [stripServerError_append rest hne hlast]
  congr 1
  rw [Bool.eq_iff_iff]
  simp only [List.any_eq_true]
  exact exists_congr fun k => and_congr_right fun hk => by rw [hkeyword k hk]

/-- A word boundary splits the search. -/
theorem hasRetryable_append {text : List Char} (rest : List Char) (hne : text ≠ [])
    (hlast : ∀ c ∈ text.getLast?, isWordChar c = false) (inWord : Bool) :
    hasRetryable inWord (text ++ rest) = (hasRetryable inWord text || hasRetryable false rest) := by
  induction text generalizing inWord with
  | nil => exact absurd rfl hne
  | cons c cs ih =>
    rw [List.cons_append, hasRetryable, hasRetryable, ← List.cons_append,
      startsRetryable_append rest hne hlast]
    rcases cs with _ | ⟨d, cs⟩
    · rw [hlast c rfl, List.nil_append, hasRetryable]
      simp
    · rw [ih (by simp) (fun x hx => hlast x (by simpa using hx)), Bool.or_assoc]

theorem lt_of_isWordChar {c : Char} (h : isWordChar c) : c.toNat < 128 := by
  unfold isWordChar Char.isAlphanum Char.isAlpha Char.isUpper Char.isLower Char.isDigit at h
  simp only [Bool.or_eq_true, Bool.and_eq_true, decide_eq_true_eq, ge_iff_le] at h
  rcases h with ((⟨-, h⟩ | ⟨-, h⟩) | ⟨-, h⟩) | rfl
  · exact lt_of_le_of_lt (UInt32.le_iff_toNat_le.mp h) (by decide)
  · exact lt_of_le_of_lt (UInt32.le_iff_toNat_le.mp h) (by decide)
  · exact lt_of_le_of_lt (UInt32.le_iff_toNat_le.mp h) (by decide)
  · decide

/-- What ends a value ends a word. -/
theorem not_word_of_not_secret {c : Char} (h : isSecretChar c = false) : isWordChar c = false := by
  rw [Bool.eq_false_iff]
  intro hword
  have hall : ∀ n < 128, isWordChar (Char.ofNat n) → isSecretChar (Char.ofNat n) := by
    decide +kernel
  have := hall c.toNat (lt_of_isWordChar hword)
  rw [Char.ofNat_toNat] at this
  rw [this hword] at h
  cases h

/-- A character that ends words does not change whether a keyword is there. -/
theorem stripKeyword_snoc {keyword text : List Char} {c : Char} (hc : isWordChar c = false)
    (hmem : c.toLower ∉ keyword) :
    (stripKeyword keyword (text ++ [c])).any atWordEnd =
      (stripKeyword keyword text).any atWordEnd := by
  induction keyword generalizing text with
  | nil =>
    rcases text with _ | ⟨x, xs⟩
    · simp [stripKeyword, atWordEnd, hc]
    · rfl
  | cons k ks ih =>
    rcases text with _ | ⟨x, xs⟩
    · have hk : c.toLower ≠ k := fun h => hmem (h ▸ List.mem_cons_self)
      simp [stripKeyword, hk]
    · rw [List.cons_append, stripKeyword, stripKeyword]
      split
      · exact ih fun h => hmem (List.mem_cons_of_mem k h)
      · rfl

theorem stripServerError_snoc {text : List Char} {c : Char} (hc : isWordChar c = false) :
    (stripServerError (text ++ [c])).any atWordEnd = (stripServerError text).any atWordEnd := by
  have hdigit := isDigit_of_not_word hc
  rcases text with _ | ⟨a, text⟩
  · rw [List.nil_append, stripServerError_other (by rintro rfl; cases hc)]
    rfl
  by_cases ha : a = '5'
  · subst ha
    rcases text with _ | ⟨d, _ | ⟨e, _ | ⟨x, cs⟩⟩⟩
    · rfl
    · simp [stripServerError, hdigit]
    · simp only [List.cons_append, List.nil_append, stripServerError]
      split <;> simp [atWordEnd, hc]
    · simp only [List.cons_append, stripServerError]
      split <;> rfl
  · rw [List.cons_append, stripServerError_other ha, stripServerError_other ha]

/-- A character behind a text that is in no word changes nothing. -/
theorem hasRetryable_snoc {text : List Char} {c : Char} (hc : isWordChar c = false)
    (inWord : Bool) : hasRetryable inWord (text ++ [c]) = hasRetryable inWord text := by
  have hstarts : ∀ text, startsRetryable (text ++ [c]) = startsRetryable text := by
    intro text
    unfold startsRetryable
    rw [stripServerError_snoc hc]
    congr 1
    rw [Bool.eq_iff_iff]
    simp only [List.any_eq_true]
    exact exists_congr fun k => and_congr_right fun hk => by
      rw [stripKeyword_snoc hc (not_mem_retryable hc k hk)]
  induction text generalizing inWord with
  | nil =>
    have := hstarts []
    rw [List.nil_append] at this ⊢
    simp [hasRetryable, this, marks_alone.2.2]
  | cons x xs ih =>
    have := hstarts (x :: xs)
    rw [List.cons_append] at this ⊢
    rw [hasRetryable, hasRetryable, this, ih]

/-- The value and what comes after it are searched apart. -/
theorem hasRetryable_value {after : List Char} (hafter : ∀ c ∈ after.head?, isSecretChar c = false)
    (value : List Char) (inWord : Bool) :
    hasRetryable inWord (value ++ after) =
      (hasRetryable inWord value || hasRetryable false after) := by
  rcases after with _ | ⟨c, after⟩
  · simp [hasRetryable]
  · have hc := not_word_of_not_secret (hafter c rfl)
    have hhead : hasRetryable false (c :: after) = hasRetryable false after := by
      have := hasRetryable_append after (List.cons_ne_nil c [])
        (by rintro x ⟨⟩; exact hc) false
      rw [List.singleton_append] at this
      rw [this, show [c] = [] ++ [c] from rfl, hasRetryable_snoc hc]
      rfl
    calc hasRetryable inWord (value ++ c :: after)
        = hasRetryable inWord ((value ++ [c]) ++ after) := by simp
      _ = (hasRetryable inWord (value ++ [c]) || hasRetryable false after) :=
          hasRetryable_append after (by simp) (by simpa using hc) inWord
      _ = (hasRetryable inWord value || hasRetryable false (c :: after)) := by
          rw [hasRetryable_snoc hc, hhead]

/-! ## One match -/

/-- A run of characters that stops before the second text, or at its start, is one of the first. -/
theorem span_append {p : Char → Bool} {first second : List Char}
    (h : (∀ c ∈ first, p c) → ∀ c ∈ second.head?, p c = false) :
    (first ++ second).takeWhile p = first.takeWhile p ∧
      (first ++ second).dropWhile p = first.dropWhile p ++ second := by
  induction first with
  | nil =>
    rcases second with _ | ⟨c, second⟩
    · exact ⟨rfl, rfl⟩
    · have hc : p c = false := h (by simp) c rfl
      simp [hc]
  | cons x xs ih =>
    rw [List.cons_append, List.takeWhile_cons, List.takeWhile_cons, List.dropWhile_cons,
      List.dropWhile_cons]
    by_cases hx : p x
    · obtain ⟨htake, hdrop⟩ := ih fun hall => h (List.forall_mem_cons.mpr ⟨hx, hall⟩)
      simp [hx, htake, hdrop]
    · simp [hx]

theorem not_space_of_secret {c : Char} (h : isSecretChar c) : isSpaceChar c = false := by
  unfold isSecretChar at h
  simp only [Bool.and_eq_true, Bool.not_eq_true'] at h
  exact h.1.1

/-- A separator that starts in a text that is not all white space ends in it. -/
theorem stripSeparator_append {text rest : List Char} (htext : ∃ c ∈ text, isSpaceChar c = false)
    (hrest : ∀ c ∈ rest.head?, isSpaceChar c = false) :
    stripSeparator (text ++ rest) =
      (stripSeparator text).map fun found => (found.1, found.2 ++ rest) := by
  obtain ⟨c, hc, hspace⟩ := htext
  obtain ⟨htake, hdrop⟩ : (text ++ rest).takeWhile isSpaceChar = text.takeWhile isSpaceChar ∧
      (text ++ rest).dropWhile isSpaceChar = text.dropWhile isSpaceChar ++ rest :=
    span_append fun hall => absurd (hall c hc) (by simp [hspace])
  unfold stripSeparator
  rw [htake, hdrop]
  rcases hcut : text.dropWhile isSpaceChar with _ | ⟨mark, tail⟩
  · exact absurd (List.dropWhile_eq_nil_iff.mp hcut c hc) (by simp [hspace])
  · obtain ⟨htake', hdrop'⟩ : (tail ++ rest).takeWhile isSpaceChar = tail.takeWhile isSpaceChar ∧
        (tail ++ rest).dropWhile isSpaceChar = tail.dropWhile isSpaceChar ++ rest :=
      span_append fun _ => hrest
    simp only [List.cons_append]
    split
    · simp only [Option.map_some, htake', hdrop']
    · rfl

/-- What `matchSecret` does with one keyword. -/
def secretAt (k : String) (text : List Char) : Option (List Char × List Char) :=
  match stripKeyword k.toList text with
  | none => none
  | some rest =>
    match stripSeparator rest with
    | none => none
    | some (separator, value) =>
      if (value.takeWhile isSecretChar).isEmpty then none
      else some (text.take k.length ++ separator, value.dropWhile isSecretChar)

theorem matchSecret_eq (text : List Char) :
    matchSecret text = secretKeywords.findSome? (secretAt · text) := rfl

/--
What it does with a text that a value is to follow: the value may begin at the end of the text, and
nothing is left of the text where the match goes on into the value.
-/
def openAt (k : String) (text : List Char) : Option (List Char × List Char) :=
  match stripKeyword k.toList text with
  | none => none
  | some rest =>
    match stripSeparator rest with
    | none => none
    | some (separator, value) =>
      if value ≠ [] ∧ (value.takeWhile isSecretChar).isEmpty then none
      else some (text.take k.length ++ separator, value.dropWhile isSecretChar)

/-- No keyword goes on behind the text, and no separator does. -/
structure Settled (text : List Char) : Prop where
  last : ∀ c ∈ text.getLast?, ∀ k ∈ secretKeywords, c.toLower ∉ k.toList
  apart : ∀ k ∈ secretKeywords, ∀ tail, tail <:+ text → ∀ rest,
    stripKeyword k.toList tail = some rest → ∃ c ∈ rest, isSpaceChar c = false

/-- What is settled is so from each place on. -/
theorem Settled.suffix {text tail : List Char} (h : Settled text) (htail : tail <:+ text) :
    Settled tail where
  last c hc := by
    obtain ⟨front, rfl⟩ := htail
    refine h.last c ?_
    rw [List.getLast?_append]
    simp only [Option.mem_def] at hc ⊢
    simp [hc]
  apart k hk tail' htail' := h.apart k hk tail' (htail'.trans htail)

/-- Where a match leaves off when a value follows the text. -/
def leftOf (rest value : List Char) : List Char :=
  if rest = [] then value.dropWhile isSecretChar else rest ++ value

/-- A field that is open at the end of a text takes the value behind it for its own. -/
theorem secretAt_append {k : String} (hk : k ∈ secretKeywords) {text value : List Char}
    (hne : text ≠ []) (hsettled : Settled text) (hvalue : ∃ c ∈ value.head?, isSecretChar c) :
    secretAt k (text ++ value) =
      (openAt k text).map fun found => (found.1, leftOf found.2 value) := by
  obtain ⟨c, hhead, hc⟩ := hvalue
  obtain ⟨tail, rfl⟩ : ∃ tail, value = c :: tail := by
    rcases value with _ | ⟨d, tail⟩
    · cases hhead
    · cases hhead
      exact ⟨tail, rfl⟩
  have hlast : ∀ x ∈ text.getLast?, x.toLower ∉ k.toList := fun x hx => hsettled.last x hx k hk
  unfold secretAt openAt
  rw [stripKeyword_append _ hne hlast]
  rcases hstrip : stripKeyword k.toList text with _ | rest
  · rfl
  obtain ⟨word, rfl, hword⟩ := stripKeyword_eq_some hstrip
  have hlength : word.length = k.length := by
    rw [← String.length_toList, ← hword, List.length_map]
  have hspace := hsettled.apart k hk _ List.suffix_rfl rest hstrip
  simp only [Option.map_some]
  rw [stripSeparator_append hspace (by rintro x ⟨⟩; exact not_space_of_secret hc)]
  rcases stripSeparator rest with _ | ⟨separator, found⟩
  · rfl
  simp only [Option.map_some, List.append_assoc, ← hlength, List.take_left']
  rcases found with _ | ⟨x, found⟩
  · simp [hc, leftOf]
  · by_cases hx : isSecretChar x
    · simp only [List.cons_append, List.takeWhile_cons, List.dropWhile_cons, hx, if_true,
        List.isEmpty_cons, Bool.false_eq_true, if_false, and_false, Option.map_some, leftOf]
      rw [List.dropWhile_append]
      simp only [List.isEmpty_iff, List.dropWhile_cons]
    · simp [hx]

theorem findSome?_congr {α β : Type*} {f g : α → Option β} {l : List α}
    (h : ∀ a ∈ l, f a = g a) : l.findSome? f = l.findSome? g := by
  induction l with
  | nil => rfl
  | cons a l ih =>
    rw [List.forall_mem_cons] at h
    rw [List.findSome?_cons, List.findSome?_cons, h.1, ih h.2]

/-- A match at the start of a text that a value follows. -/
def openMatch (text : List Char) : Option (List Char × List Char) :=
  secretKeywords.findSome? (openAt · text)

theorem matchSecret_append {text value : List Char} (hne : text ≠ []) (hsettled : Settled text)
    (hvalue : ∃ c ∈ value.head?, isSecretChar c) :
    matchSecret (text ++ value) =
      (openMatch text).map fun found => (found.1, leftOf found.2 value) := by
  rw [matchSecret_eq, openMatch, List.map_findSome?]
  exact findSome?_congr fun k hk => secretAt_append hk hne hsettled hvalue

theorem stripSeparator_suffix {text separator value : List Char}
    (h : stripSeparator text = some (separator, value)) : value <:+ text := by
  unfold stripSeparator at h
  dsimp only at h
  split at h
  · next c rest hdrop =>
    split at h
    · cases h
      exact ((List.dropWhile_suffix _).trans (List.suffix_cons c rest)).trans
        (hdrop ▸ List.dropWhile_suffix _)
    · cases h
  · cases h

/-- What is behind a keyword is shorter than the text. -/
theorem suffix_of_stripKeyword {k : String} (hk : k ∈ secretKeywords) {text rest : List Char}
    (h : stripKeyword k.toList text = some rest) : rest <:+ text ∧ rest.length < text.length := by
  obtain ⟨word, rfl, hword⟩ := stripKeyword_eq_some h
  refine ⟨List.suffix_append word rest, ?_⟩
  have hpos : word ≠ [] := by
    rintro rfl
    exact (keyword_ends hk).1 hword.symm
  have := List.length_pos_iff.mpr hpos
  rw [List.length_append]
  omega

/-- What an open match leaves is the end of the text, and shorter. -/
theorem openMatch_suffix {text kept rest : List Char} (h : openMatch text = some (kept, rest)) :
    rest <:+ text ∧ rest.length < text.length := by
  obtain ⟨k, hk, hopen⟩ := List.exists_of_findSome?_eq_some h
  unfold openAt at hopen
  split at hopen
  · cases hopen
  · next tail hstrip =>
    obtain ⟨hsuffix, hlt⟩ := suffix_of_stripKeyword hk hstrip
    split at hopen
    · cases hopen
    · next separator value hseparator =>
      split at hopen
      · cases hopen
      · cases hopen
        have hvalue := (List.dropWhile_suffix isSecretChar).trans (stripSeparator_suffix hseparator)
        exact ⟨hvalue.trans hsuffix, lt_of_le_of_lt hvalue.length_le hlt⟩

/-- What a match leaves is shorter. -/
theorem matchSecret_suffix {text kept rest : List Char} (h : matchSecret text = some (kept, rest)) :
    rest.length < text.length := by
  rw [matchSecret_eq] at h
  obtain ⟨k, hk, hat⟩ := List.exists_of_findSome?_eq_some h
  unfold secretAt at hat
  split at hat
  · cases hat
  · next tail hstrip =>
    obtain ⟨-, hlt⟩ := suffix_of_stripKeyword hk hstrip
    split at hat
    · cases hat
    · next separator value hseparator =>
      split at hat
      · cases hat
      · cases hat
        have hvalue := (List.dropWhile_suffix isSecretChar).trans (stripSeparator_suffix hseparator)
        exact lt_of_le_of_lt hvalue.length_le hlt

/-! ## The replacement -/

/-- Fuel for each character is enough. -/
theorem replaceSecrets_eq {fuel : Nat} {text : List Char} (h : text.length ≤ fuel) :
    replaceSecrets fuel text = replaced text := by
  have hboth : ∀ fuel fuel' : Nat, ∀ text : List Char, text.length ≤ fuel → text.length ≤ fuel' →
      replaceSecrets fuel text = replaceSecrets fuel' text := by
    intro fuel
    induction fuel with
    | zero =>
      intro fuel' text hfuel _
      obtain rfl := List.length_eq_zero_iff.mp (Nat.le_zero.mp hfuel)
      cases fuel' <;> rfl
    | succ fuel ih =>
      intro fuel' text hfuel hfuel'
      rcases text with _ | ⟨c, cs⟩
      · cases fuel' <;> rfl
      rcases fuel' with _ | fuel'
      · simp at hfuel'
      rw [List.length_cons] at hfuel hfuel'
      rw [replaceSecrets, replaceSecrets]
      rcases hmatch : matchSecret (c :: cs) with _ | ⟨kept, rest⟩
      · simp only
        rw [ih fuel' cs (by omega) (by omega)]
      · have hlt := matchSecret_suffix hmatch
        rw [List.length_cons] at hlt
        simp only
        rw [ih fuel' rest (by omega) (by omega)]
  exact hboth fuel text.length text h le_rfl

/-- A match is kept up to its value, and everything else as it is. -/
theorem replaced_cons (c : Char) (cs : List Char) :
    replaced (c :: cs) = match matchSecret (c :: cs) with
      | some (kept, rest) => kept ++ "[redacted]".toList ++ replaced rest
      | none => c :: replaced cs := by
  rw [replaced, List.length_cons, replaceSecrets]
  rcases hmatch : matchSecret (c :: cs) with _ | ⟨kept, rest⟩
  · rfl
  · have hlt := matchSecret_suffix hmatch
    rw [List.length_cons] at hlt
    simp only
    rw [replaceSecrets_eq (by omega)]

/-- A value after a settled text is taken, or is searched by itself. -/
theorem replaced_append {text : List Char} (hsettled : Settled text) :
    ∃ out taken, (∀ fuel, text.length < fuel → takesLast fuel (text ++ ['_']) = taken) ∧
      ∀ value : List Char, (∃ c ∈ value.head?, isSecretChar c) → replaced (text ++ value) =
        out ++ if taken then replaced (value.dropWhile isSecretChar) else replaced value := by
  -- on the length: a match takes more than one character away
  induction hlength : text.length using Nat.strongRecOn generalizing text with
  | ind n ih =>
    rcases text with _ | ⟨c, cs⟩
    · refine ⟨[], false, fun fuel hfuel => ?_, fun value _ => rfl⟩
      obtain ⟨fuel, rfl⟩ := Nat.exists_eq_succ_of_ne_zero (Nat.ne_of_gt (hlength ▸ hfuel))
      rw [List.nil_append, takesLast, marks_alone.2.1]
      cases fuel <;> rfl
    · rw [List.length_cons] at hlength
      have hmatch := fun (value : List Char) (hvalue : ∃ c ∈ value.head?, isSecretChar c) =>
        matchSecret_append (List.cons_ne_nil c cs) hsettled hvalue
      -- a match begins here, or the character is copied
      rcases hopen : openMatch (c :: cs) with _ | ⟨kept, rest⟩
      · obtain ⟨out, taken, htakes, hout⟩ :=
          ih cs.length (by omega) (hsettled.suffix (List.suffix_cons c cs)) rfl
        refine ⟨c :: out, taken, fun fuel hfuel => ?_, fun value hvalue => ?_⟩
        · obtain ⟨fuel, rfl⟩ := Nat.exists_eq_succ_of_ne_zero (Nat.ne_of_gt (by omega : 0 < fuel))
          have hnone : matchSecret (c :: (cs ++ ['_'])) = none := by
            rw [← List.cons_append, hmatch _ mark_secret, hopen]
            rfl
          rw [List.cons_append, takesLast, hnone]
          exact htakes fuel (by omega)
        · have hnone : matchSecret (c :: (cs ++ value)) = none := by
            rw [← List.cons_append, hmatch _ hvalue, hopen]
            rfl
          rw [List.cons_append, replaced_cons, hnone, hout value hvalue]
          rfl
      · obtain ⟨hsuffix, hlt⟩ := openMatch_suffix hopen
        rw [List.length_cons] at hlt
        have hsome : ∀ value : List Char, (∃ c ∈ value.head?, isSecretChar c) →
            matchSecret (c :: (cs ++ value)) = some (kept, leftOf rest value) := by
          intro value hvalue
          rw [← List.cons_append, hmatch _ hvalue, hopen]
          rfl
        by_cases hrest : rest = []
        · -- the match goes on into the value
          subst hrest
          refine ⟨kept ++ "[redacted]".toList, true, fun fuel hfuel => ?_, fun value hvalue => ?_⟩
          · obtain ⟨fuel, rfl⟩ := Nat.exists_eq_succ_of_ne_zero (Nat.ne_of_gt (by omega : 0 < fuel))
            have hleft : leftOf [] ['_'] = [] := by
              obtain ⟨c, hc, hsecret⟩ := mark_secret
              obtain rfl : '_' = c := Option.some.inj hc
              simp [leftOf, hsecret]
            rw [List.cons_append, takesLast, hsome _ mark_secret, hleft]
            rfl
          · rw [List.cons_append, replaced_cons, hsome value hvalue]
            simp [leftOf]
        · obtain ⟨out, taken, htakes, hout⟩ :=
            ih rest.length (by omega) (hsettled.suffix hsuffix) rfl
          -- the match ends before the value, so the induction goes on with the rest
          have hleft : ∀ value, leftOf rest value = rest ++ value := fun value => if_neg hrest
          refine ⟨kept ++ "[redacted]".toList ++ out, taken, fun fuel hfuel => ?_,
            fun value hvalue => ?_⟩
          · obtain ⟨fuel, rfl⟩ := Nat.exists_eq_succ_of_ne_zero (Nat.ne_of_gt (by omega : 0 < fuel))
            rw [List.cons_append, takesLast, hsome _ mark_secret, hleft]
            simp only
            rw [htakes fuel (by omega)]
            simp
          · rw [List.cons_append, replaced_cons, hsome value hvalue, hleft]
            simp only
            rw [hout value hvalue, ← List.append_assoc]

/-! ## The text before the value -/

theorem not_word_of_space {c : Char} (h : isSpaceChar c) : isWordChar c = false :=
  not_word_of_not_secret (by simp [isSecretChar, h])

/-- White space is in no keyword. -/
theorem not_mem_of_space {c : Char} (h : isSpaceChar c) :
    ∀ k ∈ secretKeywords, c.toLower ∉ k.toList := by
  intro k hk hmem
  rw [toLower_of_not_word (not_word_of_space h)] at hmem
  rw [(keyword_chars hk hmem).1] at h
  cases h

/-- The last character of a text that is not white space. -/
def lastVisible (text : List Char) : Option Char := (text.reverse.dropWhile isSpaceChar).head?

/-- The last visible character is the one before the blanks. -/
theorem lastVisible_append {front spaces : List Char} {c : Char} (hc : isSpaceChar c = false)
    (hspaces : ∀ x ∈ spaces, isSpaceChar x) : lastVisible (front ++ c :: spaces) = some c := by
  have hdrop : (spaces.reverse ++ ([c] ++ front.reverse)).dropWhile isSpaceChar =
      [c] ++ front.reverse := by
    rw [List.dropWhile_append_of_pos fun x hx => hspaces x (List.mem_reverse.mp hx)]
    simp [hc]
  rw [lastVisible, show (front ++ c :: spaces).reverse = spaces.reverse ++ ([c] ++ front.reverse) by
    simp, hdrop]
  rfl

/-- A text is settled by its last visible character, when no keyword ends in that. -/
theorem settled_of_end {front spaces : List Char} {c : Char} (hc : isSpaceChar c = false)
    (hspaces : ∀ x ∈ spaces, isSpaceChar x)
    (hmark : spaces = [] → ∀ k ∈ secretKeywords, c.toLower ∉ k.toList)
    (hend : ∀ k ∈ secretKeywords, k.toList.getLast? ≠ some c.toLower) :
    Settled (front ++ c :: spaces) where
  last x hx := by
    rcases List.eq_nil_or_concat spaces with rfl | ⟨init, y, rfl⟩
    · obtain rfl : c = x := by simpa using hx
      exact hmark rfl
    · obtain rfl : y = x := by
        have : front ++ c :: (init ++ [y]) = (front ++ c :: init) ++ [y] := by simp
        rw [List.concat_eq_append, this, List.getLast?_concat] at hx
        exact Option.some.inj hx
      exact not_mem_of_space (hspaces y (by simp))
  apart k hk tail htail rest hstrip := by
    by_contra hall
    push Not at hall
    obtain ⟨word, rfl, hword⟩ := stripKeyword_eq_some hstrip
    obtain ⟨before, hbefore⟩ := htail
    rcases List.eq_nil_or_concat word with rfl | ⟨init, w, rfl⟩
    · exact (keyword_ends hk).1 hword.symm
    · rw [List.concat_eq_append] at hword hbefore
      have hlast : k.toList.getLast? = some w.toLower := by
        rw [← hword, List.map_append, List.map_singleton, List.getLast?_concat]
      have hw : isSpaceChar w = false := by
        rw [Bool.eq_false_iff]
        intro hspace
        exact not_mem_of_space hspace k hk (List.mem_of_getLast? hlast)
      -- the keyword would end in the last visible character
      have hsame : w = c := by
        have hleft : lastVisible ((before ++ init) ++ w :: rest) = some w :=
          lastVisible_append hw fun x hx => by simpa using hall x hx
        have hright : lastVisible (front ++ c :: spaces) = some c :=
          lastVisible_append hc hspaces
        rw [← hbefore, show before ++ (init ++ [w] ++ rest) = (before ++ init) ++ w :: rest by simp,
          hleft] at hright
        exact Option.some.inj hright
      exact hend k hk (hsame ▸ hlast)

namespace Field

/-- The text before the value ends in `=` or `:`, or in the scheme word, and white space. -/
theorem opening_eq (f : Field) : ∃ front c spaces, f.opening = front ++ c :: spaces ∧
    isSpaceChar c = false ∧ (∀ x ∈ spaces, isSpaceChar x) ∧
    (c.toLower = 'r' ∧ spaces ≠ [] ∨ c = '=' ∨ c = ':') := by
  unfold opening
  rcases f.scheme with _ | scheme
  · refine ⟨f.before ++ (f.name ++ f.separator.before), f.separator.mark, f.separator.after,
      by simp, ?_, f.separator.after_ok, Or.inr f.separator.mark_ok⟩
    exact (mark_visible f.separator.mark_ok).1
  · obtain ⟨init, r, hword, hr⟩ : ∃ init r, scheme.word = init ++ [r] ∧ r.toLower = 'r' := by
      rcases List.eq_nil_or_concat scheme.word with h | ⟨init, r, h⟩
      · have := scheme.word_ok
        rw [h] at this
        cases this
      · rw [List.concat_eq_append] at h
        refine ⟨init, r, h, ?_⟩
        have hmap := congrArg List.getLast? scheme.word_ok
        rw [h, List.map_append, List.map_singleton, List.getLast?_concat] at hmap
        exact Option.some.inj (hmap.trans (by decide))
    refine ⟨f.before ++ (f.name ++ (f.separator.before ++ f.separator.mark :: f.separator.after) ++
      init), r, scheme.space, by simp [hword], ?_, scheme.space_ok, Or.inl ⟨hr, scheme.space_ne⟩⟩
    rw [Bool.eq_false_iff]
    intro hspace
    rw [toLower_of_not_word (not_word_of_space hspace)] at hr
    have hvisible := marks_shape.1
    simp only [Bool.or_eq_false_iff] at hvisible
    rw [hr, hvisible.1.1.2] at hspace
    cases hspace

/-- What opens a field is settled. -/
theorem opening_settled (f : Field) : Settled f.opening := by
  obtain ⟨front, c, spaces, heq, hc, hspaces, hkind⟩ := f.opening_eq
  rw [heq]
  have hmark : ∀ k ∈ secretKeywords, (c = '=' ∨ c = ':') → c.toLower ∉ k.toList := by
    rintro k hk hkind hmem
    rw [toLower_of_not_word (mark_visible hkind).2] at hmem
    obtain ⟨-, hne, hne'⟩ := keyword_chars hk hmem
    exact hkind.elim hne hne'
  refine settled_of_end hc hspaces (fun hnil k hk => ?_) fun k hk hlast => ?_
  · rcases hkind with ⟨-, hne⟩ | hkind
    · exact absurd hnil hne
    · exact hmark k hk hkind
  · rcases hkind with ⟨hr, -⟩ | hkind
    · exact (keyword_ends hk).2.2.2 (hr ▸ hlast)
    · exact hmark k hk hkind (List.mem_of_getLast? hlast)

theorem opening_ne_nil (f : Field) : f.opening ≠ [] := by
  obtain ⟨front, c, spaces, heq, -⟩ := f.opening_eq
  simp [heq]

/-- What opens a field does not end in a word. -/
theorem opening_last (f : Field) : ∀ c ∈ f.opening.getLast?, isWordChar c = false := by
  obtain ⟨front, c, spaces, heq, -, hspaces, hkind⟩ := f.opening_eq
  intro x hx
  rw [heq] at hx
  rcases List.eq_nil_or_concat spaces with rfl | ⟨init, y, rfl⟩
  · obtain rfl : c = x := by simpa using hx
    rcases hkind with ⟨-, hne⟩ | hkind
    · exact absurd rfl hne
    · exact (mark_visible hkind).2
  · obtain rfl : y = x := by
      have : front ++ c :: (init ++ [y]) = (front ++ c :: init) ++ [y] := by simp
      rw [List.concat_eq_append, this, List.getLast?_concat] at hx
      exact Option.some.inj hx
    exact not_word_of_space (hspaces y (by simp))

/-- The class looks at the value and at what stands around it. -/
theorem hasRetryable_message (f : Field) (value : List Char) :
    hasRetryable false (f.message value).toList = (f.RetryableAround || hasRetryable false value) := by
  rw [message, String.toList_ofList, hasRetryable_append _ f.opening_ne_nil f.opening_last,
    hasRetryable_value f.after_ok, RetryableAround, Bool.or_assoc,
    Bool.or_comm (hasRetryable false value)]

end Field

/-! ## The cut -/

theorem sliceUnits_one {c : Char} (h : c.toNat < 0x10000) (n : Nat) (cs : List Char) :
    sliceUnits (n + 1) (c :: cs) = c :: sliceUnits n cs := by
  rw [sliceUnits.eq_def]
  exact if_pos h

theorem sliceUnits_two {c : Char} (h : ¬ c.toNat < 0x10000) (n : Nat) (cs : List Char) :
    sliceUnits (n + 2) (c :: cs) = c :: sliceUnits n cs := by
  rw [sliceUnits.eq_def]
  exact if_neg h

/-- A pair that is cut in half. -/
theorem sliceUnits_half {c : Char} (h : ¬ c.toNat < 0x10000) (cs : List Char) :
    sliceUnits 1 (c :: cs) = ['\uFFFD'] := by
  rw [sliceUnits.eq_def]
  exact if_neg h

/-- Text that fills the cut hides what comes after it. -/
theorem sliceUnits_full {text : List Char} {n : Nat} (h : n ≤ unitLength text) (rest : List Char) :
    sliceUnits n (text ++ rest) = sliceUnits n text := by
  induction text generalizing n with
  | nil =>
    obtain rfl : n = 0 := Nat.le_zero.mp h
    cases rest <;> rfl
  | cons c cs ih =>
    rw [unitLength, List.map_cons, List.sum_cons, ← unitLength] at h
    rcases n with _ | n
    · rfl
    rw [List.cons_append]
    by_cases hc : c.toNat < 0x10000
    · rw [if_pos hc] at h
      rw [sliceUnits_one hc, sliceUnits_one hc, ih (by omega)]
    · rw [if_neg hc] at h
      rcases n with _ | n
      · rw [sliceUnits_half hc, sliceUnits_half hc]
      · rw [sliceUnits_two hc, sliceUnits_two hc, ih (by omega)]

/-- Text that leaves room is kept. -/
theorem sliceUnits_room {text : List Char} {n : Nat} (h : unitLength text ≤ n) (rest : List Char) :
    sliceUnits n (text ++ rest) = text ++ sliceUnits (n - unitLength text) rest := by
  induction text generalizing n with
  | nil => rfl
  | cons c cs ih =>
    rw [unitLength, List.map_cons, List.sum_cons, ← unitLength] at h ⊢
    rw [List.cons_append]
    by_cases hc : c.toNat < 0x10000
    · rw [if_pos hc] at h ⊢
      obtain ⟨n, rfl⟩ : ∃ m, n = m + 1 := ⟨n - 1, by omega⟩
      rw [sliceUnits_one hc, ih (by omega),
        show n + 1 - (1 + unitLength cs) = n - unitLength cs by omega]
      rfl
    · rw [if_neg hc] at h ⊢
      obtain ⟨n, rfl⟩ : ∃ m, n = m + 2 := ⟨n - 2, by omega⟩
      rw [sliceUnits_two hc, ih (by omega),
        show n + 2 - (2 + unitLength cs) = n - unitLength cs by omega]
      rfl

theorem unitLength_append (first second : List Char) :
    unitLength (first ++ second) = unitLength first + unitLength second := by
  simp [unitLength]

/-! ## Two values -/

theorem safeMessage_eq (message : String) :
    redactErrorMessage message = slice500 (String.ofList (replaced message.toList)) := by
  rw [redactErrorMessage, replaced, String.length_toList]

/-- A digit begins no keyword: it is kept, and the search goes on behind it. -/
theorem replaced_digit {c : Char} (hc : c = '0' ∨ c = '1') (rest : List Char) :
    replaced (c :: rest) = c :: replaced rest := by
  have hnone : matchSecret (c :: rest) = none := by
    rw [matchSecret_eq, List.findSome?_eq_none_iff]
    intro k hk
    obtain ⟨-, hzero, hone, -⟩ := keyword_ends hk
    have hstrip : stripKeyword k.toList (c :: rest) = none := by
      rcases hchars : k.toList with _ | ⟨x, xs⟩
      · exact absurd hchars ((keyword_ends hk).1)
      · rw [hchars] at hzero hone
        refine if_neg fun heq => ?_
        rcases hc with rfl | rfl
        · exact hzero (congrArg some heq.symm)
        · exact hone (congrArg some heq.symm)
    rw [secretAt, hstrip]
  rw [replaced_cons, hnone]

theorem isSecret_of_all {value : List Char} (hne : value ≠ []) (h : value.all isSecretChar = true) :
    IsSecret value :=
  ⟨hne, List.all_eq_true.mp h⟩

theorem IsSecret.head {value : List Char} (h : IsSecret value) (rest : List Char) :
    ∃ c ∈ (value ++ rest).head?, isSecretChar c := by
  rcases value with _ | ⟨c, value⟩
  · exact absurd rfl h.1
  · exact ⟨c, rfl, h.2 c List.mem_cons_self⟩

theorem IsSecret.dropWhile {value after : List Char} (h : IsSecret value)
    (hafter : ∀ c ∈ after.head?, isSecretChar c = false) :
    (value ++ after).dropWhile isSecretChar = after := by
  rw [List.dropWhile_append_of_pos h.2]
  rcases after with _ | ⟨c, after⟩
  · rfl
  · rw [List.dropWhile_cons, hafter c rfl]
    rfl

/-- The length of the message, where it is compared, counts the text before the value only. -/
theorem Field.replaced_message (f : Field) : ∃ out : List Char, ∀ value, IsSecret value →
    replaced (f.message value).toList =
      (out ++ if f.Taken then replaced f.after else replaced (value ++ f.after)) ∧
    (f.Taken = false → (f.CutOff = true ↔ 500 ≤ unitLength out)) := by
  obtain ⟨out, taken, htakes, hout⟩ := replaced_append f.opening_settled
  have htaken : f.Taken = taken := htakes _ (Nat.lt_succ_self _)
  refine ⟨out, fun value hvalue => ⟨?_, fun hfalse => ?_⟩⟩
  · rw [Field.message, String.toList_ofList, hout _ (hvalue.head f.after),
      hvalue.dropWhile f.after_ok, htaken]
  · rw [hfalse] at htaken
    rw [Field.CutOff, hout _ mark_secret, ← htaken, if_neg (by simp), marks_alone.1,
      unitLength_append,
      show unitLength ['_'] = 1 from rfl, decide_eq_true_eq]
    omega

/-- Failures are classified alike where both their class and their message are. -/
theorem classify_eq_iff {typeError : Bool} {message message' : String} :
    classifyJobFailure (.error typeError message) = classifyJobFailure (.error typeError message') ↔
      (typeError || hasRetryable false message.toList) =
          (typeError || hasRetryable false message'.toList) ∧
        redactErrorMessage message = redactErrorMessage message' := by
  unfold classifyJobFailure
  simp only [ClassifiedJobFailure.mk.injEq]
  have hclass : ∀ a b : Bool, ((if a then JobErrorClass.retryable else .permanent) =
      if b then .retryable else .permanent) ↔ a = b := by decide
  exact and_congr_left fun _ => hclass _ _

/-- What is not taken shows, unless it is cut off. -/
theorem Field.shown {f : Field} (htaken : f.Taken = false) (hcut : f.CutOff = false) :
    redactErrorMessage (f.message ['0']) ≠ redactErrorMessage (f.message ['1']) := by
  obtain ⟨out, hout⟩ := f.replaced_message
  have hroom : unitLength out < 500 := by
    have := (hout ['0'] (isSecret_digit (Or.inl rfl))).2 htaken
    rw [hcut] at this
    simpa using this
  have hshape : ∀ c, c = '0' ∨ c = '1' →
      redactErrorMessage (f.message [c]) = String.ofList (out ++ c :: sliceUnits
        (500 - unitLength out - 1) (replaced f.after)) := by
    intro c hc
    have hsmall : c.toNat < 0x10000 := by rcases hc with rfl | rfl <;> decide
    obtain ⟨m, hm⟩ : ∃ m, 500 - unitLength out = m + 1 := ⟨500 - unitLength out - 1, by omega⟩
    rw [safeMessage_eq, (hout [c] (isSecret_digit hc)).1, htaken, if_neg (by simp),
      List.singleton_append, replaced_digit hc, slice500, String.toList_ofList,
      sliceUnits_room (by omega), hm, sliceUnits_one hsmall]
    rfl
  rw [hshape '0' (Or.inl rfl), hshape '1' (Or.inr rfl)]
  intro heq
  have := String.ofList_injective heq
  rw [List.append_cancel_left_eq, List.cons.injEq] at this
  exact absurd this.1 (by decide)

/-- What is taken, or cut off, does not show. -/
theorem Field.hidden {f : Field} (h : f.Taken = true ∨ f.CutOff = true) {value value' : List Char}
    (hvalue : IsSecret value) (hvalue' : IsSecret value') :
    redactErrorMessage (f.message value) = redactErrorMessage (f.message value') := by
  obtain ⟨out, hout⟩ := f.replaced_message
  rw [safeMessage_eq, safeMessage_eq, (hout value hvalue).1, (hout value' hvalue').1]
  rcases htaken : f.Taken
  · have hcut : f.CutOff = true := by simpa [htaken] using h
    have hfull := ((hout value hvalue).2 htaken).mp hcut
    rw [if_neg (by simp), if_neg (by simp), slice500, slice500, String.toList_ofList,
      String.toList_ofList, sliceUnits_full hfull, sliceUnits_full hfull]
  · rw [if_pos rfl, if_pos rfl]

/--
The stored failure is the same for every value of the field, exactly when the value is taken or cut
off, and the message is retryable whatever the value: a value may be a word such as `timeout`.
-/
theorem failure_hides_iff (f : Field) (typeError : Bool) :
    (∀ value value', IsSecret value → IsSecret value' →
      classifyJobFailure (.error typeError (f.message value)) =
        classifyJobFailure (.error typeError (f.message value'))) ↔
      (f.Taken ∨ f.CutOff) ∧ (typeError ∨ f.RetryableAround) := by
  have hzero : IsSecret ['0'] := isSecret_digit (Or.inl rfl)
  have hone : IsSecret ['1'] := isSecret_digit (Or.inr rfl)
  have hwords : "timeout".toList.all isSecretChar = true ∧
      hasRetryable false "timeout".toList = true ∧ hasRetryable false ['0'] = false := by
    decide +kernel
  have htimeout : IsSecret "timeout".toList := isSecret_of_all (by simp) hwords.1
  constructor
  · intro h
    constructor
    · by_contra hnot
      rw [not_or, Bool.not_eq_true, Bool.not_eq_true] at hnot
      exact Field.shown hnot.1 hnot.2 (classify_eq_iff.mp (h _ _ hzero hone)).2
    · have hclass := (classify_eq_iff.mp (h _ _ htimeout hzero)).1
      rw [f.hasRetryable_message, f.hasRetryable_message, hwords.2.1, hwords.2.2] at hclass
      simpa using hclass.symm
  · rintro ⟨hmessage, hclass⟩ value value' hvalue hvalue'
    refine classify_eq_iff.mpr ⟨?_, Field.hidden hmessage hvalue hvalue'⟩
    rw [f.hasRetryable_message, f.hasRetryable_message]
    rcases hclass with rfl | hclass
    · rfl
    · simp [hclass]

/-! ## A credential behind its scheme -/

/-- `authorization: Bearer …` -/
def bearer : Field where
  before := []
  name := "authorization".toList
  separator :=
    { before := [], mark := ':', after := [' '], mark_ok := Or.inr rfl, before_ok := by simp
      after_ok := blank_space }
  scheme := some
    { word := "Bearer".toList, space := [' '], word_ok := by decide +kernel, space_ne := by simp
      space_ok := blank_space }
  after := []
  name_ok := ⟨"authorization", by decide, by decide +kernel⟩
  scheme_ok _ := by decide +kernel
  after_ok := by simp

/-- The replacement takes the scheme word and leaves the credential. -/
theorem bearer_shown :
    (classifyJobFailure (.error false (bearer.message "abc123".toList))).safeMessage =
        "authorization: [redacted] abc123" ∧
      ¬ ∀ value value', IsSecret value → IsSecret value' →
        classifyJobFailure (.error false (bearer.message value)) =
          classifyJobFailure (.error false (bearer.message value')) := by
  have hall : "abc123".toList.all isSecretChar = true ∧ "xyz789".toList.all isSecretChar = true ∧
      (classifyJobFailure (.error false (bearer.message "abc123".toList))).safeMessage =
        "authorization: [redacted] abc123" ∧
      (classifyJobFailure (.error false (bearer.message "xyz789".toList))).safeMessage =
        "authorization: [redacted] xyz789" := by
    decide +kernel
  obtain ⟨hsecret, hsecret', habc, hxyz⟩ := hall
  refine ⟨habc, fun h => ?_⟩
  have hsame := congrArg ClassifiedJobFailure.safeMessage (h "abc123".toList "xyz789".toList
    (isSecret_of_all (by simp) hsecret) (isSecret_of_all (by simp) hsecret'))
  rw [habc, hxyz] at hsame
  exact absurd hsame (by decide)

end InboxServer.Redaction
