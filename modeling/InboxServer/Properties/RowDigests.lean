import InboxServer.Scripts.MigrateSnapshot
import InboxServer.Domain.JsonText

/-!
# The digest of the rows of a table

* `rowText_injective` — a row is read off its text
* `rowDigest_perm` — the order of the rows does not matter
-/

namespace InboxServer

namespace Migration

/-! ## Bytes -/

theorem hexDigit_inj {m n : Nat} (hm : m < 16) (hn : n < 16) (h : hexDigit m = hexDigit n) :
    m = n := by
  interval_cases m <;> interval_cases n <;> first | rfl | exact absurd h (by decide)

/-- Bytes are told apart by their digits. -/
theorem hexDigits_injective {a b : Bytes}
    (h : (a.flatMap fun byte => [hexDigit (byte.toNat / 16), hexDigit (byte.toNat % 16)]) =
      b.flatMap fun byte => [hexDigit (byte.toNat / 16), hexDigit (byte.toNat % 16)]) : a = b := by
  induction a generalizing b with
  | nil =>
    cases b with
    | nil => rfl
    | cons y b => cases h
  | cons x a ih =>
    cases b with
    | nil => cases h
    | cons y b =>
      have hx := x.toNat_lt
      have hy := y.toNat_lt
      simp only [List.flatMap_cons, List.cons_append, List.nil_append, List.cons.injEq] at h
      obtain ⟨hhigh, hlow, htail⟩ := h
      have h1 := hexDigit_inj (by omega) (by omega) hhigh
      have h2 := hexDigit_inj (by omega) (by omega) hlow
      rw [ih htail, UInt8.toNat_inj.mp (show x.toNat = y.toNat by omega)]

theorem hex_injective {a b : Bytes} (h : hex a = hex b) : a = b :=
  hexDigits_injective (String.ofList_injective h)

/-! ## Values -/

/-- What follows a value in the text of a row. -/
def isDelimiter (c : Char) : Bool := c = ',' || c = ']'

/-- Texts without delimiters are told apart by where they end. -/
theorem append_delimiter_inj {a b rest rest' : List Char} {d d' : Char}
    (ha : ∀ c ∈ a, isDelimiter c = false) (hb : ∀ c ∈ b, isDelimiter c = false)
    (hd : isDelimiter d = true) (hd' : isDelimiter d' = true)
    (h : a ++ d :: rest = b ++ d' :: rest') : a = b ∧ d :: rest = d' :: rest' := by
  have htake : ∀ {l r : List Char} {e : Char}, (∀ c ∈ l, isDelimiter c = false) →
      isDelimiter e = true → (l ++ e :: r).takeWhile (fun c => !isDelimiter c) = l := by
    intro l r e hl he
    rw [List.takeWhile_append_of_pos fun c hc => by rw [hl c hc]; rfl, List.takeWhile_cons, he]
    simp
  have hab : a = b := by rw [← htake (r := rest) ha hd, h, htake hb hd']
  subst hab
  exact ⟨rfl, List.append_cancel_left h⟩

/-- A value whose text is neither that of a string nor of an object. -/
def DbValue.isAtom : DbValue → Bool
  | null | int _ | real _ => true
  | text _ | blob _ => false

/-- An integer has digits and a sign. -/
theorem mem_toString_int {n : Int} {c : Char} (h : c ∈ (toString n).toList) :
    c.isDigit = true ∨ c = '-' := by
  have hrepr : c ∈ n.repr.toList := h
  cases n with
  | ofNat m => exact Or.inl (isDigit_of_mem_toString hrepr)
  | negSucc m =>
    rw [Int.repr, String.toList_append, List.mem_append] at hrepr
    rcases hrepr with hdash | hdigit
    · exact Or.inr (List.mem_singleton.mp hdash)
    · exact Or.inl (isDigit_of_mem_toString hdigit)

theorem toString_int_ne_nil (n : Int) : (toString n).toList ≠ [] := by
  have hnat : ∀ m : Nat, m.repr.toList ≠ [] := by
    intro m
    rw [Nat.toList_repr]
    exact Nat.toDigits_ne_nil
  show n.repr.toList ≠ []
  cases n with
  | ofNat m => exact hnat m
  | negSucc m =>
    rw [Int.repr, String.toList_append]
    exact fun h => hnat _ (List.append_eq_nil_iff.mp h).2

theorem isFloatChar_of_mem {x : FloatText} {c : Char} (h : c ∈ x.text.toList) :
    isFloatChar c = true := List.all_eq_true.mp x.chars c h

theorem FloatText.ext_text {x y : FloatText} (h : x.text = y.text) : x = y := by
  cases x
  cases y
  cases h
  rfl

/-- The characters of an atom's text. -/
def isAtomChar (c : Char) : Bool := c.isDigit || c = '-' || isFloatChar c || "nul".toList.contains c

/-- The characters of an atom are those of atoms. -/
theorem isAtomChar_of_mem {v : DbValue} (hv : v.isAtom = true) {c : Char}
    (h : c ∈ v.encoded.toList) : isAtomChar c = true := by
  unfold isAtomChar
  cases v with
  | null =>
    have hnull : c ∈ ['n', 'u', 'l', 'l'] := h
    simp only [List.mem_cons, List.not_mem_nil, or_false] at hnull
    rcases hnull with rfl | rfl | rfl | rfl <;> decide
  | int n => rcases mem_toString_int h with hdigit | hdash <;> simp [*]
  | real x => simp [isFloatChar_of_mem h]
  | text | blob => cases hv

theorem encoded_ne_nil {v : DbValue} (hv : v.isAtom = true) : v.encoded.toList ≠ [] := by
  cases v with
  | null => decide
  | int n => exact toString_int_ne_nil n
  | real x =>
    obtain ⟨c, hc, -⟩ := List.any_eq_true.mp x.marked
    exact List.ne_nil_of_mem hc
  | text | blob => cases hv

/-- No digit, and no sign, tells a float from an integer. -/
theorem not_isFloatMark_of_digit {c : Char} (h : c.isDigit = true ∨ c = '-') :
    isFloatMark c = false := by
  rcases h with h | rfl
  · by_contra hmark
    rw [Bool.not_eq_false, isFloatMark, List.contains_iff_mem] at hmark
    have hmem : c ∈ ['.', 'e', 'N', 'I'] := hmark
    simp only [List.mem_cons, List.not_mem_nil, or_false] at hmem
    rcases hmem with rfl | rfl | rfl | rfl <;> exact absurd h (by decide)
  · decide

/-- Atoms are told apart by their texts. -/
theorem atom_injective {v w : DbValue} (hv : v.isAtom = true) (hw : w.isAtom = true)
    (h : v.encoded = w.encoded) : v = w := by
  have hu : ∀ {c : Char}, c = 'u' → ¬ (c.isDigit = true ∨ c = '-') ∧ isFloatChar c = false := by
    rintro c rfl
    decide
  have hnull : 'u' ∈ DbValue.null.encoded.toList := by decide
  -- `null` has a letter that no number has, and a real a mark that no integer has
  cases v with
  | null =>
    cases w with
    | null => rfl
    | int n =>
      rw [h] at hnull
      exact absurd (mem_toString_int hnull) (hu rfl).1
    | real x =>
      rw [h] at hnull
      have hchar := isFloatChar_of_mem hnull
      rw [(hu rfl).2] at hchar
      cases hchar
    | text | blob => cases hw
  | int m =>
    cases w with
    | null =>
      rw [← h] at hnull
      exact absurd (mem_toString_int hnull) (hu rfl).1
    | int n => exact congrArg DbValue.int (Int.repr_inj.mp h)
    | real x =>
      obtain ⟨c, hc, hmark⟩ := List.any_eq_true.mp x.marked
      have hint : c ∈ (toString m).toList := by
        rw [show toString m = x.text from h]
        exact hc
      rw [not_isFloatMark_of_digit (mem_toString_int hint)] at hmark
      cases hmark
    | text | blob => cases hw
  | real x =>
    cases w with
    | null =>
      rw [← h] at hnull
      have hchar := isFloatChar_of_mem hnull
      rw [(hu rfl).2] at hchar
      cases hchar
    | int n =>
      obtain ⟨c, hc, hmark⟩ := List.any_eq_true.mp x.marked
      have hint : c ∈ (toString n).toList := by
        rw [show toString n = x.text from h.symm]
        exact hc
      rw [not_isFloatMark_of_digit (mem_toString_int hint)] at hmark
      cases hmark
    | real y => exact congrArg DbValue.real (FloatText.ext_text h)
    | text | blob => cases hw
  | text | blob => cases hv

theorem isDelimiter_of_isAtomChar {c : Char} (h : isAtomChar c = true) : isDelimiter c = false := by
  by_contra hdelimiter
  simp only [isDelimiter, Bool.not_eq_false, Bool.or_eq_true, decide_eq_true_eq] at hdelimiter
  rcases hdelimiter with rfl | rfl <;> exact absurd h (by decide)

/-- The text of an atom begins as that of no other value. -/
theorem atom_append_ne {v : DbValue} (hv : v.isAtom = true) {d : Char} (hd : isAtomChar d = false)
    (rest rest' : List Char) : v.encoded.toList ++ rest ≠ d :: rest' := by
  intro h
  cases htext : v.encoded.toList with
  | nil => exact encoded_ne_nil hv htext
  | cons c text =>
    rw [htext, List.cons_append] at h
    have hc : isAtomChar c = true := isAtomChar_of_mem hv (by rw [htext]; exact List.mem_cons_self)
    rw [(List.cons.inj h).1, hd] at hc
    cases hc

theorem toList_text (s : String) (rest : List Char) :
    (DbValue.text s).encoded.toList ++ rest =
      '"' :: (s.toList.flatMap Json.escapeChar ++ '"' :: rest) := by
  simp [DbValue.encoded]

theorem toList_blob (bytes : Bytes) (rest : List Char) :
    (DbValue.blob bytes).encoded.toList ++ rest =
      '\x7b' :: ((Json.quote "$bytes").toList ++ ':' :: ((Json.quote (hex bytes)).toList ++
        '\x7d' :: rest)) := by
  simp [DbValue.encoded]

/-- What is read of a text, and what is left of it. -/
theorem encoded_append_inj {v w : DbValue} {rest rest' : List Char} {d d' : Char}
    (hd : isDelimiter d = true) (hd' : isDelimiter d' = true)
    (h : v.encoded.toList ++ d :: rest = w.encoded.toList ++ d' :: rest') :
    v = w ∧ d :: rest = d' :: rest' := by
  have hquote : isAtomChar '"' = false := by decide
  have hbrace : isAtomChar '\x7b' = false := by decide
  -- an atom runs up to its delimiter; a text and a blob begin with a mark no atom has
  cases hv : v.isAtom with
  | true =>
    cases hw : w.isAtom with
    | true =>
      obtain ⟨htext, hrest⟩ := append_delimiter_inj
        (fun c hc => isDelimiter_of_isAtomChar (isAtomChar_of_mem hv hc))
        (fun c hc => isDelimiter_of_isAtomChar (isAtomChar_of_mem hw hc)) hd hd' h
      exact ⟨atom_injective hv hw (String.toList_inj.mp htext), hrest⟩
    | false =>
      cases w with
      | text t =>
        rw [toList_text] at h
        exact absurd h (atom_append_ne hv hquote _ _)
      | blob bytes =>
        rw [toList_blob] at h
        exact absurd h (atom_append_ne hv hbrace _ _)
      | null | int | real => cases hw
  | false =>
    cases v with
    | text s =>
      cases w with
      | text t =>
        obtain ⟨hst, hrest⟩ := Json.quote_append_inj (s := s) (t := t) h
        exact ⟨congrArg DbValue.text hst, hrest⟩
      | blob bytes =>
        rw [toList_text, toList_blob] at h
        cases h
      | null | int | real =>
        rw [toList_text] at h
        exact absurd h.symm (atom_append_ne rfl hquote _ _)
    | blob bytes =>
      cases w with
      | text t =>
        rw [toList_text, toList_blob] at h
        cases h
      | blob bytes' =>
        rw [toList_blob, toList_blob] at h
        -- a brace, the tag, a colon, the quoted digits, a brace
        obtain ⟨-, htail⟩ := List.cons.inj h
        obtain ⟨-, hcolon⟩ := Json.quote_append_inj htail
        obtain ⟨-, hvalue⟩ := List.cons.inj hcolon
        obtain ⟨hhex, hclose⟩ := Json.quote_append_inj hvalue
        exact ⟨congrArg DbValue.blob (hex_injective hhex), (List.cons.inj hclose).2⟩
      | null | int | real =>
        rw [toList_blob] at h
        exact absurd h.symm (atom_append_ne rfl hbrace _ _)
    | null | int | real => cases hv

/-! ## Rows -/

/-- What follows the first value of a row begins with a delimiter. -/
theorem commas_delimiter (row : DbRow) :
    ∃ d rest, isDelimiter d = true ∧
      Json.commas (row.map DbValue.encoded) ++ [']'] = d :: rest := by
  cases row with
  | nil => exact ⟨']', [], rfl, rfl⟩
  | cons v row => exact ⟨',', _, rfl, rfl⟩

theorem commas_cons (v : DbValue) (row : DbRow) :
    Json.commas ((v :: row).map DbValue.encoded) ++ [']'] =
      ',' :: (v.encoded.toList ++ (Json.commas (row.map DbValue.encoded) ++ [']'])) := by
  simp only [Json.commas, List.map_cons, List.flatMap_cons, List.cons_append, List.append_assoc]

/-- A value and what follows it in the text of a row are read off the text. -/
theorem value_commas_inj {v w : DbValue} {row row' : DbRow}
    (h : v.encoded.toList ++ (Json.commas (row.map DbValue.encoded) ++ [']']) =
      w.encoded.toList ++ (Json.commas (row'.map DbValue.encoded) ++ [']'])) :
    v = w ∧ Json.commas (row.map DbValue.encoded) ++ [']'] =
      Json.commas (row'.map DbValue.encoded) ++ [']'] := by
  obtain ⟨d, rest, hd, hrow⟩ := commas_delimiter row
  obtain ⟨d', rest', hd', hrow'⟩ := commas_delimiter row'
  rw [hrow, hrow'] at h ⊢
  exact encoded_append_inj hd hd' h

/-- Rows are told apart by the texts of their values. -/
theorem commas_injective {row row' : DbRow}
    (h : Json.commas (row.map DbValue.encoded) ++ [']'] =
      Json.commas (row'.map DbValue.encoded) ++ [']']) : row = row' := by
  induction row generalizing row' with
  | nil =>
    cases row' with
    | nil => rfl
    | cons w row' =>
      rw [commas_cons] at h
      cases h
  | cons v row ih =>
    cases row' with
    | nil =>
      rw [commas_cons] at h
      cases h
    | cons w row' =>
      rw [commas_cons, commas_cons] at h
      obtain ⟨rfl, hrest⟩ := value_commas_inj (List.cons.inj h).2
      rw [ih hrest]

theorem toList_rowText_cons (v : DbValue) (row : DbRow) :
    (rowText (v :: row)).toList =
      '[' :: (v.encoded.toList ++ (Json.commas (row.map DbValue.encoded) ++ [']'])) := by
  rw [rowText, String.toList_append, String.toList_append, List.map_cons,
    Json.toList_intercalate_cons]
  simp

/-- No value begins as the end of a row does. -/
theorem encoded_append_ne (v : DbValue) (rest rest' : List Char) :
    v.encoded.toList ++ rest ≠ ']' :: rest' := by
  cases v with
  | text s =>
    rw [toList_text]
    exact fun h => by cases h
  | blob bytes =>
    rw [toList_blob]
    exact fun h => by cases h
  | null | int | real => exact atom_append_ne rfl (by decide) _ _

/-- **A row is read off its text.** -/
theorem rowText_injective : Function.Injective rowText := by
  intro row row' h
  have hlist := congrArg String.toList h
  cases row with
  | nil =>
    cases row' with
    | nil => rfl
    | cons w row' =>
      rw [toList_rowText_cons] at hlist
      exact absurd (List.cons.inj hlist).2.symm (encoded_append_ne w _ _)
  | cons v row =>
    cases row' with
    | nil =>
      rw [toList_rowText_cons] at hlist
      exact absurd (List.cons.inj hlist).2 (encoded_append_ne v _ _)
    | cons w row' =>
      rw [toList_rowText_cons, toList_rowText_cons] at hlist
      obtain ⟨rfl, hrest⟩ := value_commas_inj (List.cons.inj hlist).2
      rw [commas_injective hrest]

/-! ## Digests -/

instance (sha : Sha256) : RightCommutative (Digest.addText sha) where
  right_comm digest a b := by
    have htotal : ((digest.total + sha.ofText a) % modulus + sha.ofText b) % modulus =
        ((digest.total + sha.ofText b) % modulus + sha.ofText a) % modulus := by
      rw [Nat.mod_add_mod, Nat.mod_add_mod, Nat.add_right_comm]
    have hxor : digest.xor ^^^ sha.ofText a ^^^ sha.ofText b =
        digest.xor ^^^ sha.ofText b ^^^ sha.ofText a := by
      rw [Nat.xor_assoc, Nat.xor_comm (sha.ofText a), ← Nat.xor_assoc]
    simp only [Digest.addText, htotal, hxor]

/-- The digest of the texts of rows. -/
def textsDigest (sha : Sha256) (texts : List String) : Except Raised String :=
  (texts.foldl (Digest.addText sha) .zero).hexdigest sha

/-- Every value of the rows can be written as JSON. -/
def allFinite (rows : List DbRow) : Bool := rows.all fun row => row.all DbValue.isFinite

/-- Rows are added one by one, unless a float is not finite. -/
theorem foldlM_add (sha : Sha256) (rows : List DbRow) (digest : Digest) :
    rows.foldlM (Digest.add sha) digest =
      if allFinite rows then .ok ((rows.map rowText).foldl (Digest.addText sha) digest)
      else .error "Out of range float values are not JSON compliant" := by
  induction rows generalizing digest with
  | nil => rfl
  | cons row rows ih =>
    rw [List.foldlM_cons]
    cases hrow : row.all DbValue.isFinite with
    | true =>
      have hadd : Digest.add sha digest row = .ok (digest.addText sha (rowText row)) := by
        unfold Digest.add encodeRow
        rw [if_pos hrow]
        rfl
      have hfinite : allFinite (row :: rows) = allFinite rows := by
        simp only [allFinite, List.all_cons, hrow, Bool.true_and]
      rw [hadd, hfinite]
      exact ih _
    | false =>
      have hadd : Digest.add sha digest row =
          .error "Out of range float values are not JSON compliant" := by
        unfold Digest.add encodeRow
        rw [if_neg (by rw [hrow]; exact Bool.false_ne_true)]
        rfl
      have hfinite : allFinite (row :: rows) = false := by
        simp only [allFinite, List.all_cons, hrow, Bool.false_and]
      rw [hadd, hfinite]
      rfl

theorem rowDigest_eq (sha : Sha256) (rows : List DbRow) :
    rowDigest sha rows = if allFinite rows then textsDigest sha (rows.map rowText)
      else .error "Out of range float values are not JSON compliant" := by
  unfold rowDigest textsDigest
  rw [foldlM_add]
  split <;> rfl

/-- **The order of the rows does not matter.** -/
theorem rowDigest_perm (sha : Sha256) {rows rows' : List DbRow} (h : rows.Perm rows') :
    rowDigest sha rows = rowDigest sha rows' := by
  have hfinite : allFinite rows = allFinite rows' := by
    rw [Bool.eq_iff_iff]
    simp only [allFinite, List.all_eq_true, h.mem_iff]
  have htexts : textsDigest sha (rows.map rowText) = textsDigest sha (rows'.map rowText) := by
    unfold textsDigest
    rw [(h.map rowText).foldl_eq]
  rw [rowDigest_eq, rowDigest_eq, hfinite, htexts]

/-- No other rows have the digest of a table of the snapshot. -/
def Unforgeable (sha : Sha256) (snapshot : Snapshot) : Prop :=
  ∀ table ∈ snapshot.tables, ∀ texts digest,
    textsDigest sha (table.rows.map rowText) = .ok digest → textsDigest sha texts = .ok digest →
      texts.Perm (table.rows.map rowText)

/-- Rows with the digest of a table of the snapshot are its rows. -/
theorem perm_of_rowDigest {sha : Sha256} {snapshot : Snapshot} (hsha : Unforgeable sha snapshot)
    {table : SourceTable} (htable : table ∈ snapshot.tables) {rows : List DbRow} {digest : String}
    (hsource : rowDigest sha table.rows = .ok digest) (hrows : rowDigest sha rows = .ok digest) :
    rows.Perm table.rows := by
  rw [rowDigest_eq] at hsource hrows
  split at hsource
  · split at hrows
    · exact (List.map_perm_map_iff rowText_injective).mp (hsha table htable _ digest hsource hrows)
    · cases hrows
  · cases hsource

end Migration

end InboxServer
