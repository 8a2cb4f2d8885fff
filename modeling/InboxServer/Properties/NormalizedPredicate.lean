import InboxServer.Scripts.NormalizedPredicate

/-!
# Predicates are normalised once

* `normalizedPredicate_spec` — a normalised predicate is its own normal form, has the quoted texts
  of the predicate, and lacks only parentheses that match each other
-/

namespace InboxServer.Predicate

/-! ## Lower case -/

/-- The characters that the scans look for, or that may begin or end a comment. -/
def marks : List Char := ['\'', '"', '`', '[', ']', '(', ')', ',', '=', '-', '/', '*']

/-- What is relied on of `str.lower` of one character. -/
structure Lowers (lower : Char → List Char) : Prop where
  ne_nil (c : Char) : lower c ≠ []
  idem {c d : Char} (h : d ∈ lower c) : lower d = [d]
  /-- White space and the marks are no letters, and come from no letter. -/
  space {c d : Char} (h : d ∈ lower c) (hd : isSpace d = true) : isSpace c = true
  mark {c d : Char} (h : d ∈ lower c) (hd : d ∈ marks) : c = d
  mark_self {c : Char} (h : c ∈ marks) : lower c = [c]

theorem opens_mem_marks {c : Char} (h : opens c = true) : c ∈ marks := by
  simp only [opens, decide_eq_true_eq, List.mem_cons, List.not_mem_nil, or_false] at h
  rcases h with rfl | rfl | rfl | rfl <;> decide

theorem separators_subset_marks : separators ⊆ marks := by decide

theorem not_isSpace_of_mem_marks {c : Char} (h : c ∈ marks) : isSpace c = false := by
  simp only [marks, List.mem_cons, List.not_mem_nil, or_false] at h
  rcases h with rfl | rfl | rfl | rfl | rfl | rfl | rfl | rfl | rfl | rfl | rfl | rfl <;> rfl

theorem isSeparator_singleton (c : Char) : isSeparator [c] = decide (c ∈ separators) := by
  exact decide_eq_decide.mpr (List.singleton_infix_iff c separators)

/-- A text without marks is no part of the separators. -/
theorem isSeparator_eq_false {text : List Char} (hne : text ≠ []) (h : ∀ c ∈ text, c ∉ marks) :
    isSeparator text = false := by
  rw [isSeparator, decide_eq_false_iff_not]
  intro hlies
  obtain ⟨c, rest, rfl⟩ := List.exists_cons_of_ne_nil hne
  exact h c List.mem_cons_self (separators_subset_marks (hlies.subset List.mem_cons_self))

/-- What ends a quoted text, which is neither white space nor a separator. -/
def closers : List Char := ['\'', '"', '`', ']']

theorem closing_mem {c : Char} (h : opens c = true) : closing c ∈ closers := by
  simp only [opens, decide_eq_true_eq, List.mem_cons, List.not_mem_nil, or_false] at h
  rcases h with rfl | rfl | rfl | rfl <;> decide

theorem closers_spec {c : Char} (h : c ∈ closers) : c ∈ marks ∧ c ∉ separators := by
  simp only [closers, List.mem_cons, List.not_mem_nil, or_false] at h
  rcases h with rfl | rfl | rfl | rfl <;> decide

/-! ## One step of the scan -/

section

variable {lower : Char → List Char}

/-- A space may go after what was appended last. -/
def breaks (last : Option (List Char)) : Bool := last.any fun text => !isSeparator text

theorem spaced_eq (pending : Bool) (last : Option (List Char)) (c : Char) :
    spaced pending last c = (pending && breaks last && decide (c ∉ separators)) := by
  unfold spaced breaks
  cases last with
  | none => simp
  | some text => simp [isSeparator_singleton, Bool.and_assoc]

attribute [local simp] scan

theorem scan_space {c : Char} {rest : List Char} {pending : Bool} {last : Option (List Char)}
    (h : isSpace c = true) :
    scan lower (c :: rest) none pending last = scan lower rest none true last := by
  cases rest <;> simp [scan, h]

/-- A quote opens, and its text is copied. -/
theorem scan_open {c : Char} {rest : List Char} {pending : Bool} {last : Option (List Char)}
    (h : opens c = true) :
    scan lower (c :: rest) none pending last =
      (scan lower rest (some (closing c)) false (some [c])).map
        ((if spaced pending last c then [[' ']] else []) ++ [c] :: ·) := by
  have hmark := opens_mem_marks h
  have hcomment : opensComment c rest = false := by
    simp only [opens, decide_eq_true_eq, List.mem_cons, List.not_mem_nil, or_false] at h
    rcases h with rfl | rfl | rfl | rfl <;> simp [opensComment]
  cases rest <;> simp [scan, not_isSpace_of_mem_marks hmark, hcomment, h]

theorem scan_plain {c : Char} {rest : List Char} {pending : Bool} {last : Option (List Char)}
    (hspace : isSpace c = false) (hcomment : opensComment c rest = false) (hopens : opens c = false) :
    scan lower (c :: rest) none pending last =
      (scan lower rest none false (some (lower c))).map
        ((if spaced pending last c then [[' ']] else []) ++ lower c :: ·) := by
  cases rest <;> simp [scan, hspace, hcomment, hopens]

/-- The scans that come to their end, by the first character. -/
inductive Scans (lower : Char → List Char) :
    List Char → Option Char → Bool → Option (List Char) → List (List Char) → Prop
  | done {pending last} : Scans lower [] none pending last []
  | doubled {quote rest pending last out} (next : Scans lower rest (some quote) pending (some [quote]) out) :
      Scans lower (quote :: quote :: rest) (some quote) pending last ([quote] :: [quote] :: out)
  | close {quote rest pending last out} (single : rest.head? ≠ some quote)
      (next : Scans lower rest none pending (some [quote]) out) :
      Scans lower (quote :: rest) (some quote) pending last ([quote] :: out)
  | inside {c quote rest pending last out} (other : c ≠ quote)
      (next : Scans lower rest (some quote) pending (some [c]) out) :
      Scans lower (c :: rest) (some quote) pending last ([c] :: out)
  | space {c rest pending last out} (blank : isSpace c = true)
      (next : Scans lower rest none true last out) : Scans lower (c :: rest) none pending last out
  | quoted {c rest pending last out} (opening : opens c = true)
      (next : Scans lower rest (some (closing c)) false (some [c]) out) :
      Scans lower (c :: rest) none pending last
        ((if spaced pending last c then [[' ']] else []) ++ [c] :: out)
  | plain {c rest pending last out} (solid : isSpace c = false)
      (code : opensComment c rest = false) (bare : opens c = false)
      (next : Scans lower rest none false (some (lower c)) out) :
      Scans lower (c :: rest) none pending last
        ((if spaced pending last c then [[' ']] else []) ++ lower c :: out)

/-- The scan gives what the rules derive. -/
theorem scan_eq_some {text : List Char} {quote : Option Char} {pending : Bool}
    {last : Option (List Char)} {out : List (List Char)} :
    scan lower text quote pending last = some out ↔ Scans lower text quote pending last out := by
  constructor
  · intro h
    fun_induction scan lower text quote pending last generalizing out with
    | case1 =>
      cases h
      exact .done
    | case2 => cases h
    | case3 =>
      cases h
      exact .close (by simp) .done
    | case4 => cases h
    -- inside quotes: two marks are one quoted mark, and one alone closes
    | case5 rest quote pending last ih =>
      obtain ⟨next, hnext, rfl⟩ := Option.map_eq_some_iff.mp h
      exact .doubled (ih hnext)
    | case6 d rest quote pending last hother ih =>
      obtain ⟨next, hnext, rfl⟩ := Option.map_eq_some_iff.mp h
      exact .close (by simpa using hother) (ih hnext)
    | case7 c d rest quote pending last hother ih =>
      obtain ⟨next, hnext, rfl⟩ := Option.map_eq_some_iff.mp h
      exact .inside hother (ih hnext)
    -- outside: a space is held back until it is known to be needed
    | case8 c rest pending last hspace ih => exact .space hspace (ih h)
    | case9 => cases h
    | case10 c rest pending last hspace hcomment space hopens =>
      rename_i ih
      obtain ⟨next, hnext, rfl⟩ := Option.map_eq_some_iff.mp h
      exact .quoted hopens (ih hnext)
    | case11 c rest pending last hspace hcomment space hopens =>
      rename_i ih
      obtain ⟨next, hnext, rfl⟩ := Option.map_eq_some_iff.mp h
      rw [Bool.not_eq_true] at hspace hcomment hopens
      exact .plain hspace hcomment hopens (ih hnext)
  · intro h
    induction h with
    | done => rfl
    | doubled next ih => simp [scan, ih]
    | @close quote rest pending last out single next ih =>
      cases rest with
      | nil =>
        cases next
        simp [scan]
      | cons d rest =>
        have hother : d ≠ quote := by simpa using single
        simp [scan, hother, ih]
    | @inside c quote rest pending last out other next ih =>
      cases rest with
      | nil => cases next
      | cons d rest => simp [scan, other, ih]
    | space blank next ih => rw [scan_space blank, ih]
    | quoted opening next ih => rw [scan_open opening, ih]; rfl
    | plain solid code bare next ih => rw [scan_plain solid code bare, ih]; rfl

/-! ## What the scan leaves -/

/-- A mark at the head of what is appended is the next character. -/
theorem Scans.head_mark (hlower : Lowers lower) {text : List Char} {pending : Bool}
    {last : Option (List Char)} {out : List (List Char)} (h : Scans lower text none pending last out)
    (hlast : breaks last = true) {x : Char} (hx : x ∈ marks) (hsep : x ∉ separators)
    (hhead : out.flatten.head? = some x) : pending = false ∧ text.head? = some x := by
  generalize hquote : (none : Option Char) = quote at h
  induction h with
  | done => cases hhead
  | doubled | close | inside => cases hquote
  | space blank next ih =>
    obtain ⟨hpending, -⟩ := ih hlast hhead hquote
    cases hpending
  | @quoted c rest pending last out opening next ih =>
    have hc : c ∉ separators := by
      simp only [opens, decide_eq_true_eq, List.mem_cons, List.not_mem_nil, or_false] at opening
      rcases opening with rfl | rfl | rfl | rfl <;> decide
    cases pending with
    | true =>
      rw [if_pos (by simp [spaced_eq, hlast, hc])] at hhead
      cases hhead
      exact absurd hx (by decide)
    | false =>
      rw [if_neg (by simp [spaced_eq])] at hhead
      exact ⟨rfl, hhead⟩
  | @plain c rest pending last out solid code bare next ih =>
    obtain ⟨d, ds, hlow⟩ := List.exists_cons_of_ne_nil (hlower.ne_nil c)
    cases hspaced : spaced pending last c with
    | true =>
      simp only [hspaced, if_true] at hhead
      cases hhead
      exact absurd hx (by decide)
    | false =>
      simp only [hspaced, Bool.false_eq_true, if_false, List.nil_append, List.flatten_cons, hlow,
        List.cons_append, List.head?_cons, Option.some.injEq] at hhead
      have hc : c = d := hlower.mark (by rw [hlow]; exact List.mem_cons_self) (by rw [hhead]; exact hx)
      rw [hhead] at hc
      rw [spaced_eq, hlast, hc, decide_eq_true hsep] at hspaced
      exact ⟨by simpa using hspaced, by rw [hc]; rfl⟩

theorem breaks_singleton (c : Char) : breaks (some [c]) = decide (c ∉ separators) := by
  simp [breaks, isSeparator_singleton]

/-- A space that was put before a character is found there by the next scan. -/
theorem Scans.optionalSpace {c : Char} {rest : List Char} {last : Option (List Char)} {sp : Bool}
    {out : List (List Char)} (hsp : sp = true → breaks last = true ∧ c ∉ separators)
    (h : ∀ pending, Scans lower (c :: rest) none pending last
      ((if spaced pending last c then [[' ']] else []) ++ [c] :: out)) :
    Scans lower ((if sp then [' '] else []) ++ c :: rest) none false last
      ((if sp then [[' ']] else []) ++ [c] :: out) := by
  cases sp with
  | false => simpa [spaced_eq] using h false
  | true =>
    obtain ⟨hbreaks, hc⟩ := hsp rfl
    have hnext := h true
    rw [if_pos (by simp [spaced_eq, hbreaks, hc])] at hnext
    exact .space rfl hnext

/-- A character that is neither white space nor a mark, and is in lower case. -/
structure Letter (lower : Char → List Char) (c : Char) : Prop where
  low : lower c = [c]
  mark : c ∉ marks
  solid : isSpace c = false

theorem Letter.not_separator {c : Char} (h : Letter lower c) : c ∉ separators := fun hc =>
  h.mark (separators_subset_marks hc)

theorem Letter.breaks {c : Char} (h : Letter lower c) : breaks (some [c]) = true := by
  rw [breaks_singleton, decide_eq_true h.not_separator]

/-- What a letter becomes in lower case are letters that stay as they are. -/
theorem Lowers.letters (hlower : Lowers lower) {c : Char} (solid : isSpace c = false)
    (hmark : c ∉ marks) : ∀ d ∈ lower c, Letter lower d := by
  intro d hd
  refine ⟨hlower.idem hd, fun hm => hmark (by rw [hlower.mark hd hm]; exact hm), ?_⟩
  rw [Bool.eq_false_iff]
  intro hspace
  rw [hlower.space hd hspace] at solid
  cases solid

/-- A letter that lower case leaves alone is scanned as itself. -/
theorem Scans.letter {c : Char} (hc : Letter lower c) {rest : List Char} {out : List (List Char)}
    (hnext : Scans lower rest none false (some [c]) out) (pending : Bool)
    (last : Option (List Char)) :
    Scans lower (c :: rest) none pending last
      ((if spaced pending last c then [[' ']] else []) ++ [c] :: out) := by
  have hopens : opens c = false := by
    rw [Bool.eq_false_iff]
    exact fun hopens => hc.mark (opens_mem_marks hopens)
  have hcode : opensComment c rest = false := by
    have hdash : c ≠ '-' := by
      rintro rfl
      exact hc.mark (by decide)
    have hslash : c ≠ '/' := by
      rintro rfl
      exact hc.mark (by decide)
    simp [opensComment, hdash, hslash]
  rw [← hc.low] at hnext
  have hplain : Scans lower (c :: rest) none pending last _ := .plain hc.solid hcode hopens hnext
  rwa [hc.low] at hplain

theorem Scans.letters {letters : List Char} (hletters : ∀ c ∈ letters, Letter lower c)
    {rest : List Char}
    (h : ∀ last, breaks last = true → ∃ out, Scans lower rest none false last out ∧ out.flatten = rest)
    {last : Option (List Char)} (hlast : breaks last = true) :
    ∃ out, Scans lower (letters ++ rest) none false last out ∧ out.flatten = letters ++ rest := by
  induction letters generalizing last with
  | nil => exact h last hlast
  | cons c letters ih =>
    have hc := hletters c List.mem_cons_self
    obtain ⟨out, hnext, hout⟩ := ih (fun d hd => hletters d (List.mem_cons_of_mem _ hd)) hc.breaks
    exact ⟨_, Scans.letter hc hnext false last, by simp [spaced_eq, hout]⟩

/-- No comment begins in what is left of a text that has none. -/
theorem Scans.code (hlower : Lowers lower) {c : Char} {rest : List Char} {out : List (List Char)}
    (h : Scans lower rest none false (some (lower c)) out) (hcode : opensComment c rest = false) :
    opensComment c out.flatten = false := by
  simp only [opensComment, Bool.or_eq_false_iff, Bool.and_eq_false_iff, decide_eq_false_iff_not]
    at hcode ⊢
  -- the two characters that begin a comment are no separators, so no space is dropped after them
  have hstart (x : Char) (hx : x ∈ marks) (hsep : x ∉ separators) (hc : c = '-' ∨ c = '/')
      (hhead : out.flatten.head? = some x) : rest.head? = some x := by
    refine (h.head_mark hlower ?_ hx hsep hhead).2
    rcases hc with rfl | rfl <;>
    · rw [hlower.mark_self (by decide), breaks_singleton]
      decide
  constructor
  · by_cases hc : c = '-'
    · refine .inr fun hhead => ?_
      exact (hcode.1.resolve_left (not_not_intro hc))
        (hstart '-' (by decide) (by decide) (.inl hc) hhead)
    · exact .inl hc
  · by_cases hc : c = '/'
    · refine .inr fun hhead => ?_
      exact (hcode.2.resolve_left (not_not_intro hc))
        (hstart '*' (by decide) (by decide) (.inr hc) hhead)
    · exact .inl hc

/-- A scan of what a scan has left leaves it as it is. -/
theorem Scans.rescan (hlower : Lowers lower) {text : List Char} {quote : Option Char}
    {pending : Bool} {last : Option (List Char)} {out : List (List Char)}
    (h : Scans lower text quote pending last out) (hquote : ∀ q, quote = some q → q ∈ closers)
    (last' : Option (List Char)) (hlast : quote = none → breaks last' = breaks last) :
    ∃ out', Scans lower out.flatten quote false last' out' ∧ out'.flatten = out.flatten := by
  induction h generalizing last' with
  | done => exact ⟨[], .done, rfl⟩
  | @doubled quote rest pending last out next ih =>
    obtain ⟨out', hnext, hout⟩ := ih hquote (some [quote]) fun hnone => by cases hnone
    exact ⟨[quote] :: [quote] :: out', .doubled hnext, by simp [hout]⟩
  -- the closing quote is single again, unless the output puts another right behind it
  | @close quote rest pending last out single next ih =>
    obtain ⟨hmark, hsep⟩ := closers_spec (hquote quote rfl)
    obtain ⟨out', hnext, hout⟩ := ih (fun q hq => by cases hq) (some [quote]) fun _ => rfl
    refine ⟨[quote] :: out', .close (fun hhead => ?_) hnext, by simp [hout]⟩
    have hbreaks : breaks (some [quote]) = true := by rw [breaks_singleton, decide_eq_true hsep]
    exact single (next.head_mark hlower hbreaks hmark hsep hhead).2
  | @inside c quote rest pending last out other next ih =>
    obtain ⟨out', hnext, hout⟩ := ih hquote (some [c]) fun hnone => by cases hnone
    exact ⟨[c] :: out', .inside other hnext, by simp [hout]⟩
  | space blank next ih => exact ih (fun q hq => by cases hq) last' hlast
  | @quoted c rest pending last out opening next ih =>
    obtain ⟨out', hnext, hout⟩ := ih
      (fun q hq => by rw [← Option.some.inj hq]; exact closing_mem opening) (some [c])
      fun hnone => by cases hnone
    refine ⟨(if spaced pending last c then [[' ']] else []) ++ [c] :: out', ?_, by simp [hout]⟩
    have hflatten : ((if spaced pending last c then [[' ']] else []) ++ [c] :: out).flatten =
        (if spaced pending last c then [' '] else []) ++ c :: out.flatten := by
      split <;> simp
    rw [hflatten]
    refine Scans.optionalSpace (fun hsp => ?_) fun pending => .quoted opening hnext
    rw [spaced_eq, Bool.and_eq_true, Bool.and_eq_true, decide_eq_true_eq] at hsp
    exact ⟨(hlast rfl).trans hsp.1.2, hsp.2⟩
  | @plain c rest pending last out solid code bare next ih =>
    have hflatten : ((if spaced pending last c then [[' ']] else []) ++ lower c :: out).flatten =
        (if spaced pending last c then [' '] else []) ++ (lower c ++ out.flatten) := by
      split <;> simp
    have hsp (hsp : spaced pending last c = true) : breaks last' = true := by
      rw [spaced_eq, Bool.and_eq_true, Bool.and_eq_true, decide_eq_true_eq] at hsp
      exact (hlast rfl).trans hsp.1.2
    have ih := ih fun q hq => by cases hq
    by_cases hmark : c ∈ marks
    · -- a mark stays, and what follows it begins no comment
      have hlow := hlower.mark_self hmark
      obtain ⟨out', hnext, hout⟩ := ih (some (lower c)) fun _ => rfl
      have hcode := next.code hlower code
      refine ⟨(if spaced pending last c then [[' ']] else []) ++ [c] :: out', ?_, ?_⟩
      · rw [hflatten, hlow, List.singleton_append]
        refine Scans.optionalSpace (fun h => ⟨hsp h, ?_⟩) fun pending => ?_
        · rw [spaced_eq, Bool.and_eq_true, decide_eq_true_eq] at h
          exact h.2
        · have hplain : Scans lower (c :: out.flatten) none pending last' _ :=
            .plain solid hcode bare hnext
          rwa [hlow] at hplain
      · rw [hflatten, hlow]
        split <;> simp [hout]
    -- a letter may lower to several letters, and each of them stays on the second pass
    · have hletters := hlower.letters solid hmark
      have hbreaks : breaks (some (lower c)) = true := by
        simp [breaks, isSeparator_eq_false (hlower.ne_nil c) fun e he => (hletters e he).mark]
      obtain ⟨d, ds, hlow⟩ := List.exists_cons_of_ne_nil (hlower.ne_nil c)
      rw [hlow] at hletters
      have hd := hletters d List.mem_cons_self
      obtain ⟨out', hnext, hout⟩ := Scans.letters (fun e he => hletters e (List.mem_cons_of_mem _ he))
        (fun last hlast => ih last fun _ => hlast.trans hbreaks.symm) hd.breaks
      refine ⟨(if spaced pending last c then [[' ']] else []) ++ [d] :: out', ?_, ?_⟩
      · rw [hflatten, hlow, List.cons_append]
        exact Scans.optionalSpace (fun h => ⟨hsp h, hd.not_separator⟩) fun pending =>
          Scans.letter hd hnext pending last'
      · rw [hflatten, hlow]
        split <;> simp [hout]

/-! ## Fixed texts -/

def EndsSolid (text : List Char) : Prop := ∀ x, text.getLast? = some x → isSpace x = false

/-- What ends without a blank does so behind anything. -/
theorem EndsSolid.append {first second : List Char} (h : EndsSolid second)
    (hfirst : second = [] → EndsSolid first) : EndsSolid (first ++ second) := by
  intro x hx
  rw [List.getLast?_append] at hx
  cases second with
  | nil => exact hfirst rfl x hx
  | cons c rest =>
    refine h x ?_
    rw [List.getLast?_cons] at hx ⊢
    exact hx

theorem endsSolid_of_all {text : List Char} (h : ∀ c ∈ text, isSpace c = false) : EndsSolid text :=
  fun x hx => h x (List.mem_of_getLast? hx)

/-- The last character that is appended is no white space. -/
theorem Scans.endsSolid (hlower : Lowers lower) {text : List Char} {quote : Option Char}
    {pending : Bool} {last : Option (List Char)} {out : List (List Char)}
    (h : Scans lower text quote pending last out) (hquote : ∀ q, quote = some q → q ∈ closers) :
    (quote.isSome = true → out.flatten ≠ []) ∧ EndsSolid out.flatten := by
  have hcloser (q : Char) (hq : q ∈ closers) : EndsSolid [q] :=
    endsSolid_of_all fun c hc => by
      rw [List.mem_singleton.mp hc]
      exact not_isSpace_of_mem_marks (closers_spec hq).1
  induction h with
  | done => exact ⟨by simp, by simp [EndsSolid]⟩
  | @doubled quote rest pending last out next ih =>
    obtain ⟨hne, hsolid⟩ := ih hquote
    have hboth : EndsSolid ([quote, quote] ++ out.flatten) := hsolid.append fun h => absurd h (hne rfl)
    exact ⟨by simp, hboth⟩
  | @close quote rest pending last out single next ih =>
    obtain ⟨-, hsolid⟩ := ih fun q hq => by cases hq
    have hboth : EndsSolid ([quote] ++ out.flatten) :=
      hsolid.append fun _ => hcloser quote (hquote quote rfl)
    exact ⟨by simp, hboth⟩
  | @inside c quote rest pending last out other next ih =>
    obtain ⟨hne, hsolid⟩ := ih hquote
    have hboth : EndsSolid ([c] ++ out.flatten) := hsolid.append fun h => absurd h (hne rfl)
    exact ⟨by simp, hboth⟩
  | space blank next ih => exact ih fun q hq => by cases hq
  | @quoted c rest pending last out opening next ih =>
    obtain ⟨hne, hsolid⟩ := ih fun q hq => by
      rw [← Option.some.inj hq]
      exact closing_mem opening
    refine ⟨by simp, ?_⟩
    rw [List.flatten_append, List.flatten_cons]
    refine EndsSolid.append (EndsSolid.append hsolid fun h => absurd h (hne rfl)) (by simp)
  | @plain c rest pending last out solid code bare next ih =>
    obtain ⟨-, hsolid⟩ := ih fun q hq => by cases hq
    refine ⟨by simp, ?_⟩
    rw [List.flatten_append, List.flatten_cons]
    refine EndsSolid.append (EndsSolid.append hsolid fun _ => endsSolid_of_all fun d hd => ?_) ?_
    · rw [Bool.eq_false_iff]
      intro hspace
      rw [hlower.space hd hspace] at solid
      cases solid
    · simp [hlower.ne_nil c]

/-- The first one is not either, where no space may go in front of it. -/
theorem Scans.startsSolid (hlower : Lowers lower) {text : List Char} {pending : Bool}
    {last : Option (List Char)} {out : List (List Char)} (h : Scans lower text none pending last out)
    (hlast : breaks last = false) (x : Char) (hx : out.flatten.head? = some x) : isSpace x = false := by
  generalize hquote : (none : Option Char) = quote at h
  induction h with
  | done => cases hx
  | doubled | close | inside => cases hquote
  | space blank next ih => exact ih hlast hx hquote
  | @quoted c rest pending last out opening next ih =>
    rw [if_neg (by simp [spaced_eq, hlast])] at hx
    rw [← Option.some.inj hx]
    exact not_isSpace_of_mem_marks (opens_mem_marks opening)
  | @plain c rest pending last out solid code bare next ih =>
    obtain ⟨d, ds, hlow⟩ := List.exists_cons_of_ne_nil (hlower.ne_nil c)
    rw [if_neg (by simp [spaced_eq, hlast]), List.nil_append, List.flatten_cons, hlow] at hx
    rw [← Option.some.inj hx, Bool.eq_false_iff]
    intro hspace
    rw [hlower.space (by rw [hlow]; exact List.mem_cons_self) hspace] at solid
    cases solid

/-- Only the kind of what was appended last matters. -/
theorem Scans.congr_last {text : List Char} {pending : Bool} {last last' : Option (List Char)}
    {out : List (List Char)} (h : Scans lower text none pending last out)
    (hlast : breaks last' = breaks last) : Scans lower text none pending last' out := by
  generalize hquote : (none : Option Char) = quote at h
  induction h with
  | done => exact hquote ▸ .done
  | doubled | close | inside => cases hquote
  | space blank next ih => exact .space blank (ih hlast hquote)
  | @quoted c rest pending last out opening next ih =>
    have hspaced : spaced pending last c = spaced pending last' c := by simp [spaced_eq, hlast]
    rw [hspaced]
    exact .quoted opening next
  | @plain c rest pending last out solid code bare next ih =>
    have hspaced : spaced pending last c = spaced pending last' c := by simp [spaced_eq, hlast]
    rw [hspaced]
    exact .plain solid code bare next

/-- A text that the scan leaves as it is. -/
def Fixed (lower : Char → List Char) (text : List Char) : Prop :=
  ∃ out, Scans lower text none false none out ∧ out.flatten = text

theorem Scans.fixed (hlower : Lowers lower) {text : List Char} {out : List (List Char)}
    (h : Scans lower text none false none out) : Fixed lower out.flatten :=
  h.rescan hlower (fun q hq => by cases hq) none fun _ => rfl

/-- A text without blanks at its ends is stripped already. -/
theorem strip_eq_self {text : List Char} (hhead : ∀ x, text.head? = some x → isSpace x = false)
    (hlast : EndsSolid text) : strip text = text := by
  have hdrop (text : List Char) (h : ∀ x, text.head? = some x → isSpace x = false) :
      text.dropWhile isSpace = text := by
    cases text with
    | nil => rfl
    | cons c rest => rw [List.dropWhile_cons_of_neg (by simp [h c rfl])]
  rw [strip, hdrop text hhead, hdrop text.reverse, List.reverse_reverse]
  intro x hx
  rw [List.head?_reverse] at hx
  exact hlast x hx

theorem Fixed.strip_eq (hlower : Lowers lower) {text : List Char} (h : Fixed lower text) :
    strip text = text := by
  obtain ⟨out, hscans, rfl⟩ := h
  exact strip_eq_self (hscans.startsSolid hlower rfl) (hscans.endsSolid hlower fun q hq => by cases hq).2

theorem append_singleton_eq_cons {text rest : List Char} {c d : Char} (h : text ++ [d] = c :: rest) :
    (text = [] ∧ c = d ∧ rest = []) ∨ ∃ text', text = c :: text' ∧ text' ++ [d] = rest := by
  cases text with
  | nil => exact .inl ⟨rfl, (List.cons.inj h).1.symm, (List.cons.inj h).2.symm⟩
  | cons e text => exact .inr ⟨text, by rw [(List.cons.inj h).1], (List.cons.inj h).2⟩

/-- A scan up to a parenthesis that closes. -/
theorem Scans.dropLast (hlower : Lowers lower) {text : List Char} {quote : Option Char}
    {pending : Bool} {last : Option (List Char)} {out : List (List Char)}
    (h : Scans lower (text ++ [')']) quote pending last out)
    (hquote : ∀ q, quote = some q → q ∈ closers) :
    ∃ out', Scans lower text quote pending last out' ∧ out.flatten = out'.flatten ++ [')'] := by
  -- the parenthesis closes no quote, so it is read outside of one
  have hparen (q : Char) (hq : q ∈ closers) : q ≠ ')' := by
    rintro rfl
    exact absurd hq (by decide)
  generalize htext : text ++ [')'] = whole at h
  induction h generalizing text with
  | done => simp at htext
  | @doubled quote rest pending last out next ih =>
    have hne := hparen quote (hquote quote rfl)
    rcases append_singleton_eq_cons htext with ⟨-, hq, -⟩ | ⟨text', rfl, htext'⟩
    · exact absurd hq hne
    · rcases append_singleton_eq_cons htext' with ⟨-, hq, -⟩ | ⟨text'', rfl, hrest⟩
      · exact absurd hq hne
      · obtain ⟨out', hnext, hout⟩ := ih hquote hrest
        exact ⟨[quote] :: [quote] :: out', .doubled hnext, by simp [hout]⟩
  | @close quote rest pending last out single next ih =>
    rcases append_singleton_eq_cons htext with ⟨-, hq, -⟩ | ⟨text', rfl, rfl⟩
    · exact absurd hq (hparen quote (hquote quote rfl))
    · obtain ⟨out', hnext, hout⟩ := ih (fun q hq => by cases hq) rfl
      refine ⟨[quote] :: out', .close (fun hhead => single ?_) hnext, by simp [hout]⟩
      rw [List.head?_append, hhead]
      rfl
  | @inside c quote rest pending last out other next ih =>
    rcases append_singleton_eq_cons htext with ⟨-, -, rfl⟩ | ⟨text', rfl, hrest⟩
    · cases next
    · obtain ⟨out', hnext, hout⟩ := ih hquote hrest
      exact ⟨[c] :: out', .inside other hnext, by simp [hout]⟩
  | @space c rest pending last out blank next ih =>
    rcases append_singleton_eq_cons htext with ⟨-, rfl, -⟩ | ⟨text', rfl, hrest⟩
    · cases blank
    · obtain ⟨out', hnext, hout⟩ := ih (fun q hq => by cases hq) hrest
      exact ⟨out', .space blank hnext, hout⟩
  | @quoted c rest pending last out opening next ih =>
    rcases append_singleton_eq_cons htext with ⟨-, rfl, -⟩ | ⟨text', rfl, hrest⟩
    · exact absurd opening (by decide)
    · obtain ⟨out', hnext, hout⟩ := ih
        (fun q hq => by rw [← Option.some.inj hq]; exact closing_mem opening) hrest
      exact ⟨_, .quoted opening hnext, by simp [hout]⟩
  | @plain c rest pending last out solid code bare next ih =>
    rcases append_singleton_eq_cons htext with ⟨rfl, rfl, rfl⟩ | ⟨text', rfl, rfl⟩
    · cases next
      -- here it is: no space is written before a separator
      refine ⟨[], .done, ?_⟩
      rw [if_neg (by simp [spaced_eq, separators]), hlower.mark_self (by decide)]
      rfl
    · obtain ⟨out', hnext, hout⟩ := ih (fun q hq => by cases hq) rfl
      refine ⟨_, .plain solid ?_ bare hnext, by simp [hout]⟩
      cases text' with
      | nil => simp [opensComment]
      | cons d text' => exact code

/-- Between the outer parentheses of a fixed text is one, which ends outside of quotes. -/
theorem Fixed.inner (hlower : Lowers lower) {text : List Char} (h : Fixed lower ('(' :: (text ++ [')']))) :
    Fixed lower text := by
  obtain ⟨out, hscans, hout⟩ := h
  generalize hrest : text ++ [')'] = rest at hscans hout
  cases hscans with
  | space blank next => cases blank
  | quoted opening next => exact absurd opening (by decide)
  | @plain _ _ _ _ out solid code bare next =>
    have hlow : lower '(' = ['('] := hlower.mark_self (by decide)
    rw [if_neg (by simp [spaced]), List.nil_append, List.flatten_cons, hlow] at hout
    rw [hlow, ← hrest] at next
    obtain ⟨out', hnext, hout'⟩ := next.dropLast hlower fun q hq => by cases hq
    refine ⟨out', hnext.congr_last (by rw [breaks_singleton]; rfl), ?_⟩
    exact List.append_cancel_right (hout'.symm.trans ((List.cons.inj hout).2.trans hrest.symm))

end

/-! ## Quoted texts -/

/-- The quoted texts that are closed, with their quotes; `seen` is what has been read of one. -/
def quotedTexts : List Char → Option Char → List Char → List (List Char)
  | [], _, _ => []
  | [c], some quote, seen => if c = quote then [seen ++ [c]] else []
  | c :: d :: rest, some quote, seen =>
    if c = quote then
      if d = quote then quotedTexts rest (some quote) (seen ++ [c, d])
      else (seen ++ [c]) :: quotedTexts (d :: rest) none []
    else quotedTexts (d :: rest) (some quote) (seen ++ [c])
  | c :: rest, none, _ =>
    if opens c then quotedTexts rest (some (closing c)) [c] else quotedTexts rest none []

section

variable {c quote : Char} {rest seen : List Char}

attribute [local simp] quotedTexts

theorem quotedTexts_doubled :
    quotedTexts (quote :: quote :: rest) (some quote) seen =
      quotedTexts rest (some quote) (seen ++ [quote, quote]) := by
  simp [quotedTexts]

theorem quotedTexts_close (h : rest.head? ≠ some quote) :
    quotedTexts (quote :: rest) (some quote) seen =
      (seen ++ [quote]) :: quotedTexts rest none [] := by
  cases rest with
  | nil => simp [quotedTexts]
  | cons d rest =>
    have hne : d ≠ quote := by simpa using h
    simp [quotedTexts, hne]

theorem quotedTexts_inside (h : c ≠ quote) :
    quotedTexts (c :: rest) (some quote) seen = quotedTexts rest (some quote) (seen ++ [c]) := by
  cases rest <;> simp [quotedTexts, h]

theorem quotedTexts_open (h : opens c = true) :
    quotedTexts (c :: rest) none seen = quotedTexts rest (some (closing c)) [c] := by
  cases rest <;> simp [quotedTexts, h]

theorem quotedTexts_plain (h : opens c = false) :
    quotedTexts (c :: rest) none seen = quotedTexts rest none [] := by
  cases rest <;> simp [quotedTexts, h]

theorem quotedTexts_plains {text : List Char} (h : ∀ c ∈ text, opens c = false) :
    quotedTexts (text ++ rest) none [] = quotedTexts rest none [] := by
  induction text with
  | nil => rfl
  | cons c text ih =>
    rw [List.cons_append, quotedTexts_plain (h c List.mem_cons_self)]
    exact ih fun d hd => h d (List.mem_cons_of_mem _ hd)

end

/-- The induction over a text by its quotes. -/
theorem quotes_induction {motive : List Char → Option Char → Prop}
    (nil : ∀ quote, motive [] quote)
    (doubled : ∀ quote rest, motive rest (some quote) → motive (quote :: quote :: rest) (some quote))
    (close : ∀ quote rest, rest.head? ≠ some quote → motive rest none →
      motive (quote :: rest) (some quote))
    (inside : ∀ c quote rest, c ≠ quote → motive rest (some quote) → motive (c :: rest) (some quote))
    (quoted : ∀ c rest, opens c = true → motive rest (some (closing c)) → motive (c :: rest) none)
    (plain : ∀ c rest, opens c = false → motive rest none → motive (c :: rest) none)
    (text : List Char) (quote : Option Char) : motive text quote := by
  match text, quote with
  | [], quote => exact nil quote
  | c :: rest, none =>
    cases hopens : opens c with
    | true => exact quoted c rest hopens (quotes_induction nil doubled close inside quoted plain rest _)
    | false => exact plain c rest hopens (quotes_induction nil doubled close inside quoted plain rest _)
  | [c], some quote =>
    by_cases hc : c = quote
    · subst hc
      exact close c [] (by simp) (nil none)
    · exact inside c quote [] hc (nil _)
  | c :: d :: rest, some quote =>
    by_cases hc : c = quote
    · subst hc
      by_cases hd : d = c
      · subst hd
        exact doubled d rest (quotes_induction nil doubled close inside quoted plain rest _)
      · exact close c (d :: rest) (by simpa using hd)
          (quotes_induction nil doubled close inside quoted plain (d :: rest) _)
    · exact inside c quote (d :: rest) hc
        (quotes_induction nil doubled close inside quoted plain (d :: rest) _)

/-- What is neither a quote nor closes one may be left off the end. -/
theorem quotedTexts_append {c : Char} (hopens : opens c = false) (hcloser : c ∉ closers)
    (text : List Char) (quote : Option Char) (hquote : ∀ q, quote = some q → q ∈ closers)
    (seen : List Char) : quotedTexts (text ++ [c]) quote seen = quotedTexts text quote seen := by
  induction text, quote using quotes_induction generalizing seen with
  | nil quote =>
    cases quote with
    | none => simp [quotedTexts, hopens]
    | some quote =>
      have hne : c ≠ quote := fun h => hcloser (h ▸ hquote quote rfl)
      simp [quotedTexts, hne]
  | doubled quote rest ih =>
    rw [List.cons_append, List.cons_append, quotedTexts_doubled, quotedTexts_doubled, ih hquote]
  | close quote rest hsingle ih =>
    have hsingle' : (rest ++ [c]).head? ≠ some quote := by
      rw [List.head?_append]
      cases rest with
      | nil => simpa using fun h : c = quote => hcloser (h ▸ hquote quote rfl)
      | cons d rest => simpa using hsingle
    rw [List.cons_append, quotedTexts_close hsingle', quotedTexts_close hsingle,
      ih fun q hq => by cases hq]
  | inside d quote rest hne ih =>
    rw [List.cons_append, quotedTexts_inside hne, quotedTexts_inside hne, ih hquote]
  | quoted d rest hd ih =>
    rw [List.cons_append, quotedTexts_open hd, quotedTexts_open hd,
      ih fun q hq => by rw [← Option.some.inj hq]; exact closing_mem hd]
  | plain d rest hd ih =>
    rw [List.cons_append, quotedTexts_plain hd, quotedTexts_plain hd, ih fun q hq => by cases hq]

/-- A blank opens and closes no quote. -/
theorem opens_of_isSpace {c : Char} (h : isSpace c = true) : opens c = false ∧ c ∉ closers := by
  constructor
  · rw [Bool.eq_false_iff]
    intro hopens
    rw [not_isSpace_of_mem_marks (opens_mem_marks hopens)] at h
    cases h
  · intro hcloser
    rw [not_isSpace_of_mem_marks (closers_spec hcloser).1] at h
    cases h

/-- Stripping leaves the quoted texts. -/
theorem quotedTexts_strip (text : List Char) :
    quotedTexts (strip text) none [] = quotedTexts text none [] := by
  have hspaces {text : List Char} : ∀ c ∈ text.takeWhile isSpace, isSpace c = true := fun c hc =>
    List.mem_takeWhile_imp hc
  -- the white space at the end, one character after the other
  have hend (spaces : List Char) (h : ∀ c ∈ spaces, isSpace c = true) (text : List Char) :
      quotedTexts (text ++ spaces) none [] = quotedTexts text none [] := by
    induction spaces generalizing text with
    | nil => rw [List.append_nil]
    | cons c spaces ih =>
      obtain ⟨hopens, hcloser⟩ := opens_of_isSpace (h c List.mem_cons_self)
      rw [List.append_cons, ih fun d hd => h d (List.mem_cons_of_mem _ hd)]
      exact quotedTexts_append hopens hcloser text none (fun q hq => by cases hq) []
  have hsplit := List.takeWhile_append_dropWhile (p := isSpace) (l := text)
  have hsplit' := congrArg List.reverse (List.takeWhile_append_dropWhile (p := isSpace)
    (l := (text.dropWhile isSpace).reverse))
  rw [List.reverse_append, List.reverse_reverse] at hsplit'
  calc quotedTexts (strip text) none []
      = quotedTexts (text.dropWhile isSpace) none [] := by
        conv_rhs => rw [← hsplit']
        exact (hend _ (fun c hc => hspaces c (List.mem_reverse.mp hc)) _).symm
    _ = quotedTexts text none [] := by
        conv_rhs => rw [← hsplit]
        exact (quotedTexts_plains fun c hc => (opens_of_isSpace (hspaces c hc)).1).symm

section

variable {lower : Char → List Char}

theorem quotedTexts_spaced (sp : Bool) (text seen : List Char) :
    quotedTexts ((if sp then [[' ']] else []).flatten ++ text) none seen =
      quotedTexts text none (if sp then [] else seen) := by
  cases sp with
  | false => rfl
  | true => exact quotedTexts_plain (by decide)

/-- Outside of quotes nothing has been seen yet. -/
theorem quotedTexts_none (text seen : List Char) :
    quotedTexts text none seen = quotedTexts text none [] := by
  cases text with
  | nil => rfl
  | cons c rest =>
    cases hopens : opens c with
    | true => rw [quotedTexts_open hopens, quotedTexts_open hopens]
    | false => rw [quotedTexts_plain hopens, quotedTexts_plain hopens]

/-- The scan leaves the quoted texts as they are. -/
theorem Scans.quotedTexts_eq (hlower : Lowers lower) {text : List Char} {quote : Option Char}
    {pending : Bool} {last : Option (List Char)} {out : List (List Char)}
    (h : Scans lower text quote pending last out) (hquote : ∀ q, quote = some q → q ∈ closers)
    (seen : List Char) :
    quotedTexts out.flatten quote seen = quotedTexts text quote seen := by
  induction h generalizing seen with
  | done => rfl
  | @doubled quote rest pending last out next ih =>
    rw [quotedTexts_doubled, ← ih hquote]
    exact quotedTexts_doubled
  | @close quote rest pending last out single next ih =>
    obtain ⟨hmark, hsep⟩ := closers_spec (hquote quote rfl)
    have hsingle : out.flatten.head? ≠ some quote := by
      have hbreaks : breaks (some [quote]) = true := by rw [breaks_singleton, decide_eq_true hsep]
      exact fun hhead => single (next.head_mark hlower hbreaks hmark hsep hhead).2
    rw [quotedTexts_close single, ← ih fun q hq => by cases hq]
    exact quotedTexts_close hsingle
  | @inside c quote rest pending last out other next ih =>
    rw [quotedTexts_inside other, ← ih hquote]
    exact quotedTexts_inside other
  | @space c rest pending last out blank next ih =>
    rw [quotedTexts_plain (opens_of_isSpace blank).1, ih (fun q hq => by cases hq), quotedTexts_none]
  | @quoted c rest pending last out opening next ih =>
    rw [List.flatten_append, quotedTexts_spaced, quotedTexts_none, quotedTexts_open opening,
      ← ih fun q hq => by rw [← Option.some.inj hq]; exact closing_mem opening]
    exact quotedTexts_open opening
  | @plain c rest pending last out solid code bare next ih =>
    rw [List.flatten_append, quotedTexts_spaced, quotedTexts_none, quotedTexts_plain bare,
      ← ih fun q hq => by cases hq]
    refine quotedTexts_plains fun d hd => ?_
    rw [Bool.eq_false_iff]
    intro hopens
    rw [hlower.mark hd (opens_mem_marks hopens), hopens] at bare
    cases bare

end

/-! ## Parentheses -/

/-- The parentheses outside of quotes. -/
def parens : List Char → Option Char → List Char
  | [], _ => []
  | [_], some _ => []
  | c :: d :: rest, some quote =>
    if c = quote then
      if d = quote then parens rest (some quote) else parens (d :: rest) none
    else parens (d :: rest) (some quote)
  | c :: rest, none =>
    if opens c then parens rest (some (closing c))
    else if c = '(' || c = ')' then c :: parens rest none
    else parens rest none

/-- Every parenthesis has its match. -/
inductive Balanced : List Char → Prop
  | nil : Balanced []
  | pair {first second : List Char} (inside : Balanced first) (after : Balanced second) :
      Balanced ('(' :: (first ++ ')' :: second))

/-- The list closes that many parentheses, the last one at its end. -/
inductive Closes : Nat → List Char → Prop
  | done : Closes 0 []
  | next {depth : Nat} {first rest : List Char} (inside : Balanced first) (after : Closes depth rest) :
      Closes (depth + 1) (first ++ ')' :: rest)

theorem Closes.open {depth : Nat} {rest : List Char} (h : Closes (depth + 2) rest) :
    Closes (depth + 1) ('(' :: rest) := by
  cases h with
  | next inside after =>
    cases after with
    | next inside' after' =>
      simpa using Closes.next (Balanced.pair inside inside') after'

section

variable {c quote : Char} {rest : List Char}

attribute [local simp] parens enclosesAll

theorem parens_doubled :
    parens (quote :: quote :: rest) (some quote) = parens rest (some quote) := by
  simp [parens]

theorem parens_close (h : rest.head? ≠ some quote) :
    parens (quote :: rest) (some quote) = parens rest none := by
  cases rest with
  | nil => rfl
  | cons d rest =>
    have hne : d ≠ quote := by simpa using h
    simp [parens, hne]

theorem parens_inside (h : c ≠ quote) : parens (c :: rest) (some quote) = parens rest (some quote) := by
  cases rest <;> simp [parens, h]

theorem parens_open (h : opens c = true) :
    parens (c :: rest) none = parens rest (some (closing c)) := by
  cases rest <;> simp [parens, h]

theorem parens_plain (h : opens c = false) :
    parens (c :: rest) none =
      if c = '(' ∨ c = ')' then c :: parens rest none else parens rest none := by
  cases rest <;> simp [parens, h]

variable {depth : Int}

theorem enclosesAll_doubled :
    enclosesAll (quote :: quote :: rest) (some quote) depth = enclosesAll rest (some quote) depth := by
  simp [enclosesAll]

theorem enclosesAll_close (h : rest.head? ≠ some quote) :
    enclosesAll (quote :: rest) (some quote) depth = enclosesAll rest none depth := by
  cases rest with
  | nil => rfl
  | cons d rest =>
    have hne : d ≠ quote := by simpa using h
    simp [enclosesAll, hne]

theorem enclosesAll_inside (h : c ≠ quote) :
    enclosesAll (c :: rest) (some quote) depth = enclosesAll rest (some quote) depth := by
  cases rest <;> simp [enclosesAll, h]

theorem enclosesAll_none :
    enclosesAll (c :: rest) none depth =
      if opens c then enclosesAll rest (some (closing c)) depth
      else if c = '(' then enclosesAll rest none (depth + 1)
      else if c = ')' then
        if depth - 1 = 0 && !rest.isEmpty then false else enclosesAll rest none (depth - 1)
      else enclosesAll rest none depth := by
  cases rest <;> rfl

end

/-- The inner loop finds that the text closes what is open, and not before its end. -/
theorem enclosesAll_closes (text : List Char) (quote : Option Char) (depth : Nat)
    (h : enclosesAll text quote (depth + 1) = true) : Closes (depth + 1) (parens text quote) := by
  induction text, quote using quotes_induction generalizing depth with
  | nil quote =>
    simp only [enclosesAll, decide_eq_true_eq] at h
    omega
  | doubled quote rest ih =>
    rw [enclosesAll_doubled] at h
    rw [parens_doubled]
    exact ih depth h
  | close quote rest hsingle ih =>
    rw [enclosesAll_close hsingle] at h
    rw [parens_close hsingle]
    exact ih depth h
  | inside c quote rest hne ih =>
    rw [enclosesAll_inside hne] at h
    rw [parens_inside hne]
    exact ih depth h
  | quoted c rest hopens ih =>
    rw [enclosesAll_none, if_pos hopens] at h
    rw [parens_open hopens]
    exact ih depth h
  | plain c rest hopens ih =>
    rw [enclosesAll_none, if_neg (by simp [hopens])] at h
    rw [parens_plain hopens]
    split at h
    next hc =>
      rw [if_pos (.inl hc), hc]
      exact (ih (depth + 1) (by exact_mod_cast h)).open
    next =>
      split at h
      next hc =>
        rw [if_pos (.inr hc), hc]
        split at h
        next => cases h
        next hrest =>
          rw [add_sub_cancel_right] at h
          refine Closes.next .nil ?_
          cases depth with
          | succ depth => exact ih depth (by exact_mod_cast h)
          | zero =>
            -- the parenthesis that closes the first one is followed by nothing
            cases rest with
            | nil => exact .done
            | cons d rest => simp at hrest
      next hclose hopen =>
        rw [if_neg (by rintro (hc | hc) <;> contradiction)]
        exact ih depth h

/-- `unwrapped` is `text` without parentheses around it that match each other. -/
inductive Unwraps : List Char → List Char → Prop
  | refl (text : List Char) : Unwraps text text
  | wrap {text unwrapped : List Char} (matched : Balanced (parens text none))
      (next : Unwraps text unwrapped) : Unwraps ('(' :: (text ++ [')'])) unwrapped

section

variable {lower : Char → List Char}

/-- A text that the scan comes to the end of ends outside of quotes. -/
theorem Scans.parens_append {text : List Char} {quote : Option Char} {pending : Bool}
    {last : Option (List Char)} {out : List (List Char)}
    (h : Scans lower text quote pending last out) (hquote : ∀ q, quote = some q → q ∈ closers) :
    parens (text ++ [')']) quote = parens text quote ++ [')'] := by
  induction h with
  | done => rfl
  | doubled next ih =>
    rw [List.cons_append, List.cons_append, parens_doubled, parens_doubled, ih hquote]
  | @close quote rest pending last out single next ih =>
    have hsingle : (rest ++ [')']).head? ≠ some quote := by
      rw [List.head?_append]
      cases rest with
      | nil =>
        intro hhead
        rw [← Option.some.inj hhead] at hquote
        exact absurd (hquote ')' rfl) (by decide)
      | cons d rest => simpa using single
    rw [List.cons_append, parens_close hsingle, parens_close single, ih fun q hq => by cases hq]
  | inside other next ih =>
    rw [List.cons_append, parens_inside other, parens_inside other, ih hquote]
  | space blank next ih =>
    have hopens := (opens_of_isSpace blank).1
    rw [List.cons_append, parens_plain hopens, parens_plain hopens, ih fun q hq => by cases hq]
    split <;> rfl
  | quoted opening next ih =>
    rw [List.cons_append, parens_open opening, parens_open opening,
      ih fun q hq => by rw [← Option.some.inj hq]; exact closing_mem opening]
  | plain solid code bare next ih =>
    rw [List.cons_append, parens_plain bare, parens_plain bare, ih fun q hq => by cases hq]
    split <;> rfl

/-- A text that begins and ends with parentheses is what they hold, between them. -/
theorem eq_wrapped {text : List Char} (hhead : text.head? = some '(')
    (hlast : text.getLast? = some ')') : text = '(' :: (inner text ++ [')']) := by
  cases text with
  | nil => cases hhead
  | cons c rest =>
    obtain rfl := Option.some.inj hhead
    cases rest with
    | nil => exact absurd hlast (by decide)
    | cons d rest =>
      rw [List.getLast?_cons_cons] at hlast
      obtain ⟨before, hbefore⟩ := List.getLast?_eq_some_iff.mp hlast
      simp [inner, hbefore]

theorem Closes.balanced {parentheses : List Char} (h : Closes 1 (parentheses ++ [')'])) :
    Balanced parentheses := by
  generalize hlist : parentheses ++ [')'] = list at h
  cases h with
  | next inside after =>
    cases after
    rw [List.append_cancel_right hlist]
    exact inside

/-- Parentheses are taken off where they match each other. -/
theorem Fixed.balanced (hlower : Lowers lower) {text : List Char}
    (h : Fixed lower ('(' :: (text ++ [')'])))
    (hencloses : enclosesAll ('(' :: (text ++ [')'])) none 0 = true) : Balanced (parens text none) := by
  obtain ⟨out, hscans, -⟩ := h.inner hlower
  have hopens : opens '(' = false := by decide
  rw [enclosesAll_none, hopens] at hencloses
  have hcloses := enclosesAll_closes (text ++ [')']) none 0 hencloses
  rw [hscans.parens_append fun q hq => by cases hq] at hcloses
  exact hcloses.balanced

theorem quotedTexts_wrapped (text : List Char) :
    quotedTexts ('(' :: (text ++ [')'])) none [] = quotedTexts text none [] := by
  rw [quotedTexts_plain (by decide)]
  exact quotedTexts_append (by decide) (by decide) text none (fun q hq => by cases hq) []

/-- The second loop takes off matching parentheses, until there are none around the text. -/
theorem stripParens_spec (hlower : Lowers lower) {text : List Char} (h : Fixed lower text) :
    Unwraps text (stripParens text) ∧ Fixed lower (stripParens text) ∧
      stripParens (stripParens text) = stripParens text ∧
      quotedTexts (stripParens text) none [] = quotedTexts text none [] := by
  fun_induction stripParens text with
  | case1 text hwrapped ih =>
    simp only [Bool.and_eq_true, decide_eq_true_eq] at hwrapped
    obtain ⟨⟨hhead, hlast⟩, hencloses⟩ := hwrapped
    have htext := eq_wrapped hhead hlast
    rw [htext] at h hencloses
    have hinner := h.inner hlower
    rw [hinner.strip_eq hlower] at ih ⊢
    obtain ⟨hunwraps, hfixed, htwice, hquoted⟩ := ih hinner
    refine ⟨?_, hfixed, htwice, hquoted.trans ?_⟩
    · have hwrap : Unwraps ('(' :: (inner text ++ [')'])) (stripParens (inner text)) :=
        .wrap (h.balanced hlower hencloses) hunwraps
      rwa [← htext] at hwrap
    · conv_rhs => rw [htext]
      exact (quotedTexts_wrapped (inner text)).symm
  | case2 text hwrapped => exact ⟨.refl text, h, by rw [stripParens, if_neg hwrapped], rfl⟩

/-! ## The normal form -/

theorem Fixed.normalize_eq (hlower : Lowers lower) {text : List Char} (h : Fixed lower text) :
    normalize lower text = stripParens text := by
  have hstrip := h.strip_eq hlower
  obtain ⟨out, hscans, hout⟩ := h
  simp only [normalize, hstrip, scan_eq_some.mpr hscans, hout]

theorem head?_dropWhile_isSpace (text : List Char) {x : Char}
    (h : (text.dropWhile isSpace).head? = some x) : isSpace x = false := by
  have hnot := List.head?_dropWhile_not isSpace text
  rw [h] at hnot
  exact hnot

/-- Stripping twice strips no more. -/
theorem strip_strip (text : List Char) : strip (strip text) = strip text := by
  refine strip_eq_self (fun x hx => ?_) fun x hx => ?_
  · have hopens : strip text <+: text.dropWhile isSpace := by
      rw [← List.reverse_suffix, strip, List.reverse_reverse]
      exact List.dropWhile_suffix isSpace
    obtain ⟨rest, hrest⟩ := hopens
    refine head?_dropWhile_isSpace text ?_
    rw [← hrest, List.head?_append, hx]
    rfl
  · rw [strip, List.getLast?_reverse] at hx
    exact head?_dropWhile_isSpace _ hx

/-- The normal form is one, keeps the quoted texts, and is the scanned or the stripped text. -/
theorem normalize_spec (hlower : Lowers lower) (text : List Char) :
    normalize lower (normalize lower text) = normalize lower text ∧
      quotedTexts (normalize lower text) none [] = quotedTexts text none [] ∧
      (normalize lower text = strip text ∨
        ∃ normalized, scan lower (strip text) none false none = some normalized ∧
          Unwraps normalized.flatten (normalize lower text)) := by
  cases hscan : scan lower (strip text) none false none with
  | none =>
    have hvalue : normalize lower text = strip text := by simp only [normalize, hscan]
    rw [hvalue]
    refine ⟨?_, quotedTexts_strip text, .inl rfl⟩
    simp only [normalize, strip_strip, hscan]
  | some normalized =>
    have hscans := scan_eq_some.mp hscan
    have hfixed := hscans.fixed hlower
    have hvalue : normalize lower text = stripParens normalized.flatten := by
      simp only [normalize, hscan, hfixed.strip_eq hlower]
    rw [hvalue]
    obtain ⟨hunwraps, hfixed', htwice, hquoted⟩ := stripParens_spec hlower hfixed
    refine ⟨(hfixed'.normalize_eq hlower).trans htwice, ?_, .inr ⟨normalized, rfl, hunwraps⟩⟩
    calc quotedTexts (stripParens normalized.flatten) none []
        = quotedTexts normalized.flatten none [] := hquoted
      _ = quotedTexts (strip text) none [] := hscans.quotedTexts_eq hlower (fun q hq => by cases hq) []
      _ = quotedTexts text none [] := quotedTexts_strip text

/--
**Normalising a predicate.** The result is its own normal form, its quoted texts are those of the
predicate, and it is the predicate without the white space around it, or what the scan makes of
that without outer parentheses, each pair of which matched each other.
-/
theorem normalizedPredicate_spec (hlower : Lowers lower) (predicate : Option String) :
    normalizedPredicate lower (normalizedPredicate lower predicate) =
        normalizedPredicate lower predicate ∧
      ∀ text, predicate = some text → ∃ value, normalizedPredicate lower predicate = some value ∧
        quotedTexts value.toList none [] = quotedTexts text.toList none [] ∧
        (value.toList = strip text.toList ∨
          ∃ normalized, scan lower (strip text.toList) none false none = some normalized ∧
            Unwraps normalized.flatten value.toList) := by
  constructor
  · cases predicate with
    | none => rfl
    | some text =>
      simp only [normalizedPredicate, Option.map_some, String.toList_ofList,
        (normalize_spec hlower text.toList).1]
  · rintro text rfl
    refine ⟨_, rfl, ?_⟩
    rw [String.toList_ofList]
    exact (normalize_spec hlower text.toList).2

end

/-! ### ASCII -/

/-- `str.lower` of an ASCII character -/
def asciiLower (c : Char) : List Char := [c.toLower]

/-- An upper-case letter, or a character that is its own lower case. -/
theorem toLower_cases (c : Char) : c.toLower = c ∨ ∃ n < 91, 65 ≤ n ∧ c = Char.ofNat n := by
  by_cases h : c.toNat < 91 ∧ 65 ≤ c.toNat
  · exact .inr ⟨c.toNat, h.1, h.2, (Char.ofNat_toNat c).symm⟩
  · left
    refine dif_neg fun hupper => h ⟨?_, ?_⟩
    · have hle := UInt32.le_iff_toNat_le.mp hupper.2
      exact Nat.lt_succ_of_le hle
    · exact UInt32.le_iff_toNat_le.mp hupper.1

theorem asciiLower_letters : ∀ n < 91, 65 ≤ n →
    (Char.ofNat n).toLower.toLower = (Char.ofNat n).toLower ∧
      isSpace (Char.ofNat n).toLower = false ∧ (Char.ofNat n).toLower ∉ marks ∧
      Char.ofNat n ∉ marks := by
  decide +kernel

/-- Lower case on ASCII is as it is asked for. -/
theorem asciiLower_lowers : Lowers asciiLower where
  ne_nil c := by simp [asciiLower]
  idem {c d} h := by
    rw [asciiLower, List.mem_singleton] at h
    rw [h, asciiLower]
    rcases toLower_cases c with hc | ⟨n, hn, hn', rfl⟩
    · rw [hc, hc]
    · rw [(asciiLower_letters n hn hn').1]
  space {c d} h hd := by
    rw [asciiLower, List.mem_singleton] at h
    rcases toLower_cases c with hc | ⟨n, hn, hn', rfl⟩
    · rwa [h, hc] at hd
    · rw [h, (asciiLower_letters n hn hn').2.1] at hd
      cases hd
  mark {c d} h hd := by
    rw [asciiLower, List.mem_singleton] at h
    rcases toLower_cases c with hc | ⟨n, hn, hn', rfl⟩
    · rw [h, hc]
    · rw [h] at hd
      exact absurd hd (asciiLower_letters n hn hn').2.2.1
  mark_self {c} h := by
    rcases toLower_cases c with hc | ⟨n, hn, hn', rfl⟩
    · rw [asciiLower, hc]
    · exact absurd h (asciiLower_letters n hn hn').2.2.2

/-- Two pairs of parentheses go, and the quoted text keeps its spaces. -/
theorem normalizedPredicate_spec_ascii :
    normalizedPredicate asciiLower (some "((State  =  'not ''done''') )") =
        some "state='not ''done'''" ∧
      normalizedPredicate asciiLower (some "state='not ''done'''") = some "state='not ''done'''" := by
  have hvalue : normalizedPredicate asciiLower (some "((State  =  'not ''done''') )") =
      some "state='not ''done'''" := by
    decide +kernel
  have htwice := (normalizedPredicate_spec asciiLower_lowers (some "((State  =  'not ''done''') )")).1
  rw [hvalue] at htwice
  exact ⟨hvalue, htwice⟩

end InboxServer.Predicate
