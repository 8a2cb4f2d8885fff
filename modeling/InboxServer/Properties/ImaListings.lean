import InboxServer.Worker.ImaMirror

/-!
# When the listings of IMA end

The answers to the requests of a listing may be any; nothing in the loops counts the pages, or looks
for a cursor that comes again.

* `listings_end_iff` — a listing ends exactly when it is answered some time with an error, with the
  end, or without a cursor; where a folder is created, that goes for the listing after it too
-/

namespace InboxServer.Ima

open Infra

/-! ## Answers in order -/

/-- The requests are answered in order; other calls as `other` says. The state counts the requests. -/
def answerFetch (answers : Nat → FetchReply) (other : (c : ImaCall) → c.Answer) (n : Nat) :
    (c : ImaCall) → Nat × c.Answer
  | .fetch _ => (n + 1, answers n)
  | c => (n, other c)

/-- With enough fuel, the program returns or throws. -/
def Ends {α : Type} (answers : Nat → FetchReply) (other : (c : ImaCall) → c.Answer)
    (program : Nat → ImaProg α) : Prop :=
  ∃ fuel, ((program fuel).exec (answerFetch answers other) 0).2 ≠ .error .outOfFuel

/-! ## One listing -/

section Listing

variable {α : Type} {read : FetchReply → Except Stop (ListPage α)} {answers : Nat → FetchReply}
  {other : (c : ImaCall) → c.Answer}

/-- An answer after which no page is asked for: it throws, or there is no cursor to follow. -/
def endsListing (read : FetchReply → Except Stop (ListPage α)) (reply : FetchReply) : Bool :=
  match read reply with
  | .error _ => true
  | .ok page => page.next.isNone

/-- What a page adds. -/
def pageFound (read : FetchReply → Except Stop (ListPage α)) (reply : FetchReply) : List α :=
  match read reply with
  | .error _ => []
  | .ok page => page.found

/-- What the pages of `count` answers add, from the one at `n` on. -/
def foundIn (read : FetchReply → Except Stop (ListPage α)) (answers : Nat → FetchReply) (n : Nat) :
    Nat → List α
  | 0 => []
  | count + 1 => pageFound read (answers n) ++ foundIn read answers (n + 1) count

/-- The first answer that ends a listing from the one at `n` on comes after `k` others. -/
def EndsAfter (read : FetchReply → Except Stop (ListPage α)) (answers : Nat → FetchReply)
    (n k : Nat) : Prop :=
  endsListing read (answers (n + k)) = true ∧ ∀ i < k, endsListing read (answers (n + i)) = false

theorem exists_endsAfter {n m : Nat} (hm : n ≤ m) (h : endsListing read (answers m) = true) :
    ∃ k, EndsAfter read answers n k ∧ n + k ≤ m := by
  have hsome : ∃ k, endsListing read (answers (n + k)) = true := ⟨m - n, by rwa [Nat.add_sub_cancel' hm]⟩
  have hle : Nat.find hsome ≤ m - n := Nat.find_min' hsome (by rwa [Nat.add_sub_cancel' hm])
  exact ⟨Nat.find hsome,
    ⟨Nat.find_spec hsome, fun i hi => Bool.eq_false_iff.mpr (Nat.find_min hsome hi)⟩, by omega⟩

/-- A listing without an end runs out of any fuel. -/
theorem listPages_endless {request : Json → ImaRequest} {fuel n : Nat} {cursor : Json}
    {found : List α} (h : ∀ i < fuel, endsListing read (answers (n + i)) = false) :
    ((listPages request read fuel cursor found).exec (answerFetch answers other) n).2 =
      .error .outOfFuel := by
  induction fuel generalizing n cursor found with
  | zero => rfl
  | succ fuel ih =>
    have hgoes := h 0 (Nat.succ_pos fuel)
    rw [Nat.add_zero, endsListing] at hgoes
    rw [listPages, Prog.exec_call]
    simp only [answerFetch]
    rcases hpage : read (answers n) with e | page
    · rw [hpage] at hgoes
      cases hgoes
    · simp only [hpage] at hgoes ⊢
      obtain ⟨next, hnext⟩ : ∃ next, page.next = some next := by
        rwa [Option.isNone_eq_false_iff, Option.isSome_iff_exists] at hgoes
      simp only [hnext]
      refine ih fun i hi => ?_
      have := h (i + 1) (Nat.succ_lt_succ hi)
      rwa [show n + 1 + i = n + (i + 1) by omega]

/-- A listing with enough fuel ends at its first page that ends it. -/
theorem listPages_ends {request : Json → ImaRequest} {fuel n k : Nat} {cursor : Json}
    {found : List α} (h : EndsAfter read answers n k) (hfuel : k < fuel) :
    (listPages request read fuel cursor found).exec (answerFetch answers other) n =
      (n + k + 1, match read (answers (n + k)) with
        | .error e => .error e
        | .ok _ => .ok (found ++ foundIn read answers n (k + 1))) := by
  induction k generalizing n cursor found fuel with
  | zero =>
    obtain ⟨fuel, rfl⟩ : ∃ m, fuel = m + 1 := ⟨fuel - 1, by omega⟩
    have hends := h.1
    rw [Nat.add_zero, endsListing] at hends
    rw [listPages, Prog.exec_call]
    simp only [answerFetch, Nat.add_zero]
    rcases hpage : read (answers n) with e | page
    · simp only [Prog.exec_ret]
    · simp only [hpage] at hends
      simp only [Option.isNone_iff_eq_none.mp hends, Prog.exec_ret]
      simp [foundIn, pageFound, hpage]
  | succ k ih =>
    obtain ⟨fuel, rfl⟩ : ∃ m, fuel = m + 1 := ⟨fuel - 1, by omega⟩
    have hgoes := h.2 0 (Nat.succ_pos k)
    rw [Nat.add_zero, endsListing] at hgoes
    rw [listPages, Prog.exec_call]
    simp only [answerFetch]
    rcases hpage : read (answers n) with e | page
    · rw [hpage] at hgoes
      cases hgoes
    · simp only [hpage] at hgoes ⊢
      obtain ⟨next, hnext⟩ : ∃ next, page.next = some next := by
        rwa [Option.isNone_eq_false_iff, Option.isSome_iff_exists] at hgoes
      simp only [hnext]
      have hrest : EndsAfter read answers (n + 1) k := by
        refine ⟨?_, fun i hi => ?_⟩
        · rw [show n + 1 + k = n + (k + 1) by omega]
          exact h.1
        · rw [show n + 1 + i = n + (i + 1) by omega]
          exact h.2 (i + 1) (Nat.succ_lt_succ hi)
      rw [ih hrest (by omega)]
      simp only [show n + 1 + k = n + (k + 1) by omega]
      congr 1
      cases read (answers (n + (k + 1))) with
      | error e => rfl
      | ok last =>
        have hfound : foundIn read answers n (k + 1 + 1) =
            page.found ++ foundIn read answers (n + 1) (k + 1) := by
          rw [foundIn, pageFound, hpage]
        simp only [hfound, List.append_assoc]

variable (answers other) in
/-- A listing ends as soon as there is an answer that ends it. -/
theorem listPages_outOfFuel_iff (request : Json → ImaRequest) (n : Nat) (cursor : Json)
    (found : List α) (hread : ∀ reply, read reply ≠ .error .outOfFuel) :
    (∃ fuel, ((listPages request read fuel cursor found).exec (answerFetch answers other) n).2 ≠
        .error .outOfFuel) ↔ ∃ m, n ≤ m ∧ endsListing read (answers m) = true := by
  constructor
  · rintro ⟨fuel, hends⟩
    by_contra hnone
    push Not at hnone
    exact hends (listPages_endless fun i _ =>
      Bool.eq_false_iff.mpr (hnone (n + i) (Nat.le_add_right n i)))
  · rintro ⟨m, hm, h⟩
    obtain ⟨k, hk, -⟩ := exists_endsAfter hm h
    refine ⟨k + 1, ?_⟩
    rw [listPages_ends hk (Nat.lt_succ_self k)]
    cases hlast : read (answers (n + k)) with
    | error e => simpa [hlast] using hread (answers (n + k))
    | ok page => simp

end Listing

/-- The payload of an answer does not depend on fuel. -/
theorem imaData_ne_outOfFuel (stage : String) (reply : FetchReply) :
    imaData stage reply ≠ .error .outOfFuel := by
  unfold imaData mirrorError
  intro h
  split at h
  · cases h
  · cases h
  · cases h
  · cases h
  · split at h
    · split at h <;> cases h
    · cases h

theorem pageEntries_ne_outOfFuel (stage listKey : String) (reply : FetchReply) :
    pageEntries stage listKey reply ≠ .error .outOfFuel := by
  unfold pageEntries
  intro h
  split at h
  · next e he =>
    cases h
    exact imaData_ne_outOfFuel stage reply he
  · split at h <;> cases h

theorem readPage_ne_outOfFuel {α : Type} (stage listKey : String) (pick : Json → Option (Option α))
    (reply : FetchReply) : readPage stage listKey pick reply ≠ .error .outOfFuel := by
  unfold readPage
  intro h
  split at h
  · next e he =>
    cases h
    exact pageEntries_ne_outOfFuel stage listKey reply he
  · split at h <;> cases h

theorem onlyMatch_ne_outOfFuel {α : Type} (message stage reason : String) (found : List α) :
    onlyMatch (mirrorError message stage reason) found ≠ .error .outOfFuel := by
  unfold onlyMatch mirrorError
  intro h
  split at h <;> cases h

/-! ## The two listings -/

/-- A page of knowledge bases. -/
def readBases (name : String) : FetchReply → Except Stop (ListPage Value) :=
  readPage "knowledge_base" "addable_knowledge_base_list" (pickKnowledgeBase name)

/-- A page of what is in a knowledge base. -/
def readFolders (month : String) : FetchReply → Except Stop (ListPage String) :=
  readPage "folder" "knowledge_list" (pickFolder month)

theorem readBases_ne_outOfFuel (name : String) (reply : FetchReply) :
    readBases name reply ≠ .error .outOfFuel := readPage_ne_outOfFuel _ _ _ reply

theorem readFolders_ne_outOfFuel {month : String} (reply : FetchReply) :
    readFolders month reply ≠ .error .outOfFuel := readPage_ne_outOfFuel _ _ _ reply

section Loops

variable {options : MirrorOptions} {answers : Nat → FetchReply} {other : (c : ImaCall) → c.Answer}

/-- The search for the knowledge base ends exactly where an answer ends its listing. -/
theorem knowledgeBase_ends_iff :
    Ends answers other (findUniqueKnowledgeBase options) ↔
      ∃ n, endsListing (readBases options.knowledgeBaseName) (answers n) = true := by
  have hlisting := listPages_outOfFuel_iff answers other .getAddableKnowledgeBaseList 0 (.str "") []
    (readBases_ne_outOfFuel options.knowledgeBaseName)
  simp only [Nat.zero_le, true_and] at hlisting
  rw [← hlisting]
  refine exists_congr fun fuel => not_congr ?_
  rw [findUniqueKnowledgeBase, Prog.exec_andThen, ← readBases]
  cases hlast : ((listPages .getAddableKnowledgeBaseList (readBases options.knowledgeBaseName) fuel
    (.str "") []).exec (answerFetch answers other) 0).2 with
  | error e => simp
  | ok found => simp [onlyMatch_ne_outOfFuel]

/--
The listing of the folders of a month that ends with the answer at `n` has found none, and the next
answer is that of a folder that is created.
-/
def Creates (options : MirrorOptions) (month : String) (answers : Nat → FetchReply) (n : Nat) : Prop :=
  (∃ page, readFolders month (answers n) = .ok page) ∧
    foundIn (readFolders month) answers 0 (n + 1) = [] ∧
    ∃ webHeaders target, options.webHeaders = some webHeaders ∧
      folderTarget options webHeaders = .ok target ∧ folderFailure (answers (n + 1)) = none

variable {knowledgeBaseId : Value} {month : String} {fuel n : Nat}

/-- What is done once the folders of the month have been listed. -/
theorem monthFolder_exec (hn : EndsAfter (readFolders month) answers 0 n) (hfuel : n < fuel) :
    (findUniqueMonthFolder options knowledgeBaseId month fuel).exec (answerFetch answers other) 0 =
      match readFolders month (answers n) with
      | .error e => (n + 1, .error e)
      | .ok _ =>
        (match foundIn (readFolders month) answers 0 (n + 1), options.webHeaders with
          | [], some webHeaders => createMonthFolder options knowledgeBaseId month fuel webHeaders
          | found, _ => .ret (uniqueFolder found)).exec (answerFetch answers other) (n + 1) := by
  rw [findUniqueMonthFolder, Prog.exec_andThen, listMonthFolders, ← readFolders,
    listPages_ends hn hfuel]
  simp only [Nat.zero_add, List.nil_append]
  cases readFolders month (answers n) <;> rfl

/-- The target of a folder does not depend on fuel. -/
theorem folderTarget_ne_outOfFuel (options : MirrorOptions) (webHeaders : Fields) :
    folderTarget options webHeaders ≠ .error .outOfFuel := by
  unfold folderTarget required mirrorError
  intro h
  split at h
  · next e he =>
    cases h
    dsimp only at he
    split at he <;> cases he
  · split at h <;> cases h

theorem folderFailure_ne_outOfFuel (reply : FetchReply) : folderFailure reply ≠ some .outOfFuel := by
  unfold folderFailure mirrorError
  intro h
  split at h
  · cases h
  · cases h
  · cases h
  · split at h <;> cases h

/-- Without a folder that is created there is no second listing. -/
theorem monthFolder_ends_of_not_creates (hn : EndsAfter (readFolders month) answers 0 n)
    (hcreates : ¬ Creates options month answers n) (hfuel : n < fuel) :
    ((findUniqueMonthFolder options knowledgeBaseId month fuel).exec (answerFetch answers other) 0).2 ≠
      .error .outOfFuel := by
  rw [monthFolder_exec hn hfuel]
  cases hlast : readFolders month (answers n) with
  | error e =>
    intro h
    obtain rfl : e = .outOfFuel := by simpa using h
    exact readFolders_ne_outOfFuel (answers n) hlast
  | ok page =>
    dsimp only
    split
    · next webHeaders hnone hheaders =>
      rw [createMonthFolder]
      cases htarget : folderTarget options webHeaders with
      | error e => simpa [htarget] using folderTarget_ne_outOfFuel options webHeaders
      | ok target =>
        dsimp only
        rw [Prog.exec_call]
        cases hfailure : folderFailure (answers (n + 1)) with
        | some e =>
          simpa [answerFetch, hfailure] using folderFailure_ne_outOfFuel (answers (n + 1))
        | none => exact absurd ⟨⟨page, hlast⟩, hnone, webHeaders, target, hheaders, htarget, hfailure⟩ hcreates
    · exact onlyMatch_ne_outOfFuel _ _ _ _

/-- With a folder that is created there is one. -/
theorem monthFolder_of_creates (hn : EndsAfter (readFolders month) answers 0 n)
    (hcreates : Creates options month answers n) (hfuel : n < fuel) :
    (findUniqueMonthFolder options knowledgeBaseId month fuel).exec (answerFetch answers other) 0 =
      ((listMonthFolders knowledgeBaseId month fuel).andThen fun found => .ret (uniqueFolder found)).exec
        (answerFetch answers other) (n + 2) := by
  obtain ⟨⟨page, hpage⟩, hnone, webHeaders, target, hheaders, htarget, hfailure⟩ := hcreates
  rw [monthFolder_exec hn hfuel, hpage]
  dsimp only
  rw [hnone, hheaders]
  dsimp only
  rw [createMonthFolder, htarget]
  dsimp only
  rw [Prog.exec_call]
  simp only [answerFetch, hfailure]

/-- The search for the one folder ends with the listing. -/
theorem uniqueFolder_outOfFuel_iff {m : Nat} :
    (((listMonthFolders knowledgeBaseId month fuel).andThen fun found =>
        .ret (uniqueFolder found)).exec (answerFetch answers other) m).2 = .error .outOfFuel ↔
      ((listMonthFolders knowledgeBaseId month fuel).exec (answerFetch answers other) m).2 =
        .error .outOfFuel := by
  rw [Prog.exec_andThen]
  cases ((listMonthFolders knowledgeBaseId month fuel).exec (answerFetch answers other) m).2 with
  | error e => simp
  | ok found => simp [uniqueFolder, onlyMatch_ne_outOfFuel]

/-- With the folder created there is a second listing, which has to end, too. -/
theorem monthFolder_ends_iff :
    Ends answers other (findUniqueMonthFolder options knowledgeBaseId month) ↔
      ∃ n, EndsAfter (readFolders month) answers 0 n ∧ (Creates options month answers n →
        ∃ m, n + 2 ≤ m ∧ endsListing (readFolders month) (answers m) = true) := by
  constructor
  · rintro ⟨fuel, hends⟩
    have hlast : ∃ i < fuel, endsListing (readFolders month) (answers i) = true := by
      by_contra hnone
      push Not at hnone
      apply hends
      rw [findUniqueMonthFolder, Prog.exec_andThen, listMonthFolders, ← readFolders]
      rw [listPages_endless fun i hi => ?_]
      rw [Nat.zero_add]
      exact Bool.eq_false_iff.mpr (hnone i hi)
    obtain ⟨i, hi, hlast⟩ := hlast
    obtain ⟨n, hn, hle⟩ := exists_endsAfter (Nat.zero_le i) hlast
    refine ⟨n, hn, fun hcreates => ?_⟩
    rw [monthFolder_of_creates hn hcreates (by omega), ne_eq, uniqueFolder_outOfFuel_iff] at hends
    exact (listPages_outOfFuel_iff answers other _ _ _ _ readFolders_ne_outOfFuel).mp ⟨fuel, hends⟩
  · rintro ⟨n, hn, hagain⟩
    by_cases hcreates : Creates options month answers n
    · obtain ⟨m, hm, hends⟩ := hagain hcreates
      obtain ⟨k, hk, -⟩ := exists_endsAfter hm hends
      refine ⟨max (n + 1) (k + 1), ?_⟩
      rw [monthFolder_of_creates hn hcreates (by omega), ne_eq, uniqueFolder_outOfFuel_iff,
        listMonthFolders, ← readFolders, listPages_ends hk (by omega)]
      cases hlast : readFolders month (answers (n + 2 + k)) with
      | error e =>
        intro h
        obtain rfl : e = .outOfFuel := by simpa using h
        exact readFolders_ne_outOfFuel _ hlast
      | ok page => simp
    · exact ⟨n + 1, monthFolder_ends_of_not_creates hn hcreates (Nat.lt_succ_self n)⟩

end Loops

/--
**When the listings end.** That of the knowledge bases does exactly when some answer is an error, has
`is_end`, or has no cursor. That of the folders does exactly when there is such an answer and, where a
folder is created after it, another one after that.
-/
theorem listings_end_iff (options : MirrorOptions) (knowledgeBaseId : Value) (month : String)
    (answers : Nat → FetchReply) (other : (c : ImaCall) → c.Answer) :
    (Ends answers other (findUniqueKnowledgeBase options) ↔
      ∃ n, endsListing (readBases options.knowledgeBaseName) (answers n) = true) ∧
    (Ends answers other (findUniqueMonthFolder options knowledgeBaseId month) ↔
      ∃ n, EndsAfter (readFolders month) answers 0 n ∧ (Creates options month answers n →
        ∃ m, n + 2 ≤ m ∧ endsListing (readFolders month) (answers m) = true)) :=
  ⟨knowledgeBase_ends_iff, monthFolder_ends_iff⟩

namespace Sample

def options : MirrorOptions where
  enabled := true
  knowledgeBaseName := "inbox"
  stateDirectory := "/state"
  hasStateStore := true
  webHeaders := none
  webKnowledgeBaseId := none

/-- A page with nothing on it, and the cursor that was asked for. -/
def samePage : FetchReply := some (true, some (.obj
  [ ("addable_knowledge_base_list", .arr []), ("knowledge_list", .arr []), ("is_end", .bool false),
    ("next_cursor", .str "1") ]))

def noAnswer : (c : ImaCall) → c.Answer
  | .fetch _ => none
  | .now => 0
  | .getState _ | .markerExists _ | .putState .. | .writeMarker .. => .error ()
  | .readKnowledgeBaseId => none
  | .writeKnowledgeBaseId _ => ()

/-- With one page that leads to itself, neither listing ends. -/
theorem listings_endless :
    ¬ Ends (fun _ => samePage) noAnswer (findUniqueKnowledgeBase options) ∧
      ¬ Ends (fun _ => samePage) noAnswer (findUniqueMonthFolder options (some (.str "kb")) "202601") := by
  rw [knowledgeBase_ends_iff, monthFolder_ends_iff]
  have hbases : endsListing (readBases options.knowledgeBaseName) samePage = false := by
    decide +kernel
  have hfolders : endsListing (readFolders "202601") samePage = false := by decide +kernel
  constructor
  · rintro ⟨n, hends⟩
    rw [hbases] at hends
    cases hends
  · rintro ⟨n, hends, -⟩
    rw [EndsAfter, hfolders] at hends
    cases hends.1

end Sample

end InboxServer.Ima
