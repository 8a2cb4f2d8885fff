import InboxServer.Infra.Attempts
import InboxServer.Worker.ImaMirror

/-!
# An article is mirrored once

The attempts to mirror one source, one after the other. Each may be cut off at any call, and a call
may take effect without its answer arriving. What the provider lists is what it has.

* `mirrored_once` — at most one `add_knowledge` takes effect, and an attempt that returns has left the
  marker
-/

namespace InboxServer.Ima

open Infra

/-! ## What there is -/

structure Base where
  id : String
  name : String
  deriving DecidableEq

/-- What lies at the root of a knowledge base: a folder, by its id, or anything else. -/
structure Entry where
  baseId : String
  id : String
  title : String
  deriving DecidableEq

/-- An article in a folder. -/
structure Filed where
  baseId : String
  folderId : String
  name : String
  deriving DecidableEq

/-- What the provider has, what is stored of the mirror of the source, and what the closure keeps. -/
structure World where
  bases : List Base
  entries : List Entry
  filed : List Filed
  state : Value
  hasMarkerFile : Bool
  knowledgeBaseId : Value
  /-- How often an `add_knowledge` of the source has taken effect. -/
  effects : Nat

/-- The marker of the source is stored. -/
def World.HasMarker (options : MirrorOptions) (w : World) : Prop :=
  if options.hasStateStore then w.state ≠ none ∧ w.state ≠ some .null else w.hasMarkerFile = true

/-! ## Listings that show what there is -/

/-- From a cursor on, the pages of a listing hold these items. -/
inductive Walk {α : Type} (page : Json → List α) (next : Json → Option Json) : Json → List α → Prop
  | last {cursor : Json} (h : next cursor = none) : Walk page next cursor (page cursor)
  | more {cursor cursor' : Json} {rest : List α} (h : next cursor = some cursor')
      (hrest : Walk page next cursor' rest) : Walk page next cursor (page cursor ++ rest)

/-- How a list is served in pages: each item comes once. -/
structure Paging {α : Type} (items : List α) where
  page : Json → List α
  next : Json → Option Json
  listed : List α
  walk : Walk page next (.str "") listed
  perm : listed.Perm items

/-- The entry of a page that stands for a knowledge base. -/
def ShowsBase (entry : Json) (base : Base) : Prop :=
  Json.field entry "id" = some (.str base.id) ∧ Json.field entry "name" = some (.str base.name)

/-- The entry of a page that stands for a folder. -/
def ShowsEntry (shown : Json) (entry : Entry) : Prop :=
  Json.field shown "media_id" = some (.str entry.id) ∧ Json.field shown "title" = some (.str entry.title)

/-- The provider, by the pages in which it serves its listings. -/
structure Provider where
  basePages : (w : World) → Paging w.bases
  entryPages : (w : World) → (baseId : String) → Paging (w.entries.filter (·.baseId = baseId))

/-- An answer to a listing: it fails, or it is the page of its cursor. -/
def Answers {α : Type} {items : List α} (paging : Paging items) (shows : Json → α → Prop)
    (stage listKey : String) (cursor : Json) (reply : FetchReply) : Prop :=
  (∃ stop, pageEntries stage listKey reply = .error stop) ∨
    ∃ shown, pageEntries stage listKey reply = .ok (shown, paging.next cursor) ∧
      List.Forall₂ shows shown (paging.page cursor)

/--
How a call may be answered, and what it leaves behind. A request that changes something may do so
whatever the answer is; it has done so when the answer is a success.
-/
def learns (provider : Provider) (w : World) : (c : ImaCall) → c.Answer → World → Prop
  | .fetch (.getAddableKnowledgeBaseList cursor), reply, w' => w' = w ∧
      Answers (provider.basePages w) ShowsBase "knowledge_base" "addable_knowledge_base_list" cursor reply
  | .fetch (.getKnowledgeList knowledgeBaseId cursor), reply, w' => w' = w ∧
      ∀ baseId, knowledgeBaseId = some (.str baseId) →
        Answers (provider.entryPages w baseId) ShowsEntry "folder" "knowledge_list" cursor reply
  | .fetch (.createFolder _ title), _, w' =>
      w' = w ∨ ∃ baseId id, w' = { w with entries := w.entries ++ [⟨baseId, id, title⟩] }
  | .fetch (.checkRepeatedNames knowledgeBaseId folderId name), reply, w' => w' = w ∧
      ∀ baseId, knowledgeBaseId = some (.str baseId) →
        (∃ stop, readRepeated reply = .error stop) ∨
          readRepeated reply = .ok (decide (⟨baseId, folderId, name⟩ ∈ w.filed))
  | .fetch (.createMedia ..), _, w' | .fetch (.putObject ..), _, w' => w' = w
  | .fetch (.addKnowledge knowledgeBaseId folderId title _ _ _ _), reply, w' =>
      (w' = w ∧ ∃ stop, imaData "add_knowledge" reply = .error stop) ∨
        ∃ baseId, knowledgeBaseId = some (.str baseId) ∧
          w' = { w with filed := w.filed ++ [⟨baseId, folderId, title⟩], effects := w.effects + 1 }
  | .now, _, w' => w' = w
  | .getState _, reply, w' => w' = w ∧ (reply = .error () ∨ reply = .ok w.state)
  | .putState _ _, reply, w' => (w' = w ∧ reply = .error ()) ∨
      ∃ marker, marker ≠ .null ∧ w' = { w with state := some marker }
  | .markerExists _, reply, w' => w' = w ∧ (reply = .error () ∨ reply = .ok w.hasMarkerFile)
  | .writeMarker _ _, reply, w' =>
      (w' = w ∧ reply = .error ()) ∨ w' = { w with hasMarkerFile := true }
  | .readKnowledgeBaseId, reply, w' => w' = w ∧ reply = w.knowledgeBaseId
  | .writeKnowledgeBaseId id, _, w' => w' = { w with knowledgeBaseId := id }

/-! ## What is kept -/

/-- The only knowledge base of the name. -/
def World.Target (w : World) (name baseId : String) : Prop :=
  (w.bases.filter (·.name = name)).map (·.id) = [baseId]

/-- An entry that is a folder of the month. -/
def Entry.isMonthFolder (month : String) (entry : Entry) : Bool :=
  entry.title = month && "folder_".toList.isPrefixOf entry.id.toList

/-- The folders of the month in a knowledge base. -/
def World.monthFolders (w : World) (baseId month : String) : List String :=
  ((w.entries.filter (·.baseId = baseId)).filter (·.isMonthFolder month)).map (·.id)

/--
At most one `add_knowledge` has taken effect, and then the article is in a folder of the month, in the
only knowledge base of the name; what the closure keeps is that knowledge base.
-/
structure Inv (name month filename : String) (w : World) : Prop where
  once : w.effects ≤ 1
  filed : w.effects = 1 → ∃ baseId folderId, w.Target name baseId ∧
    folderId ∈ w.monthFolders baseId month ∧ ⟨baseId, folderId, filename⟩ ∈ w.filed
  kept : w.knowledgeBaseId = none ∨ ∃ baseId, w.knowledgeBaseId = some (.str baseId) ∧
    w.Target name baseId

/--
What may be asked for: `add_knowledge` only where it has not taken effect, for the article in a folder
of its month; and what the closure keeps is the only knowledge base of the name.
-/
def asks (name month filename : String) (w : World) : ImaCall → Prop
  | .fetch (.addKnowledge knowledgeBaseId folderId title _ _ _ _) => w.effects = 0 ∧ title = filename ∧
      ∃ baseId, knowledgeBaseId = some (.str baseId) ∧ w.Target name baseId ∧
        folderId ∈ w.monthFolders baseId month
  | .writeKnowledgeBaseId id => ∃ baseId, id = some (.str baseId) ∧ w.Target name baseId
  | _ => True

def onceContract (provider : Provider) (name month filename : String) :
    Contract ImaCall ImaCall.Answer World where
  asks := asks name month filename
  learns := learns provider

section Attempts

variable {provider : Provider} {options : MirrorOptions} {name month filename : String} {w w' : World}

/-- More entries of a knowledge base hold the folders that were there. -/
theorem monthFolders_append {baseId folderId : String} (h : folderId ∈ w.monthFolders baseId month)
    (entries : List Entry) (filed : List Filed) :
    folderId ∈ World.monthFolders { w with entries := w.entries ++ entries, filed } baseId month := by
  unfold World.monthFolders at *
  rw [List.filter_append, List.filter_append, List.map_append]
  exact List.mem_append_left _ h

/-- A call that is allowed keeps the invariant. -/
theorem inv_learns {c : ImaCall} {reply : c.Answer} (h : Inv name month filename w)
    (hasks : asks name month filename w c) (hlearns : learns provider w c reply w') :
    Inv name month filename w' := by
  cases c with
  | fetch request =>
    cases request with
    | getAddableKnowledgeBaseList cursor => rwa [hlearns.1]
    | getKnowledgeList id cursor => rwa [hlearns.1]
    | createFolder base title =>
      rcases hlearns with rfl | ⟨baseId, id, rfl⟩
      · exact h
      · refine ⟨h.once, fun heffects => ?_, h.kept⟩
        obtain ⟨target, folderId, htarget, hfolder, hfiled⟩ := h.filed heffects
        exact ⟨target, folderId, htarget, monthFolders_append hfolder _ _, hfiled⟩
    | checkRepeatedNames id folderId title => rwa [hlearns.1]
    | createMedia id fileName fileSize => rwa [show w' = w from hlearns]
    | putObject hostname pathname content => rwa [show w' = w from hlearns]
    | addKnowledge id folderId title mediaId cosKey fileSize lastModifyTime =>
      obtain ⟨heffects, rfl, baseId, rfl, htarget, hfolder⟩ := hasks
      rcases hlearns with ⟨rfl, -⟩ | ⟨baseId', hid, rfl⟩
      · exact h
      · cases hid
        refine ⟨by simp [heffects], fun _ => ⟨baseId, folderId, htarget, hfolder, by simp⟩, h.kept⟩
  | now => rwa [show w' = w from hlearns]
  | getState key => rwa [hlearns.1]
  | putState key marker =>
    rcases hlearns with ⟨rfl, -⟩ | ⟨state, -, rfl⟩
    · exact h
    · exact ⟨h.once, h.filed, h.kept⟩
  | markerExists path => rwa [hlearns.1]
  | writeMarker path marker =>
    rcases hlearns with ⟨rfl, -⟩ | rfl
    · exact h
    · exact ⟨h.once, h.filed, h.kept⟩
  | readKnowledgeBaseId => rwa [hlearns.1]
  | writeKnowledgeBaseId id =>
    obtain ⟨baseId, rfl, htarget⟩ := hasks
    rw [show w' = _ from hlearns]
    exact ⟨h.once, h.filed, Or.inr ⟨baseId, rfl, htarget⟩⟩

/-! ## Listings -/

theorem filterMap_ite {α β : Type} (p : α → Bool) (f : α → β) (l : List α) :
    (l.filterMap fun a => if p a then some (f a) else none) = (l.filter p).map f := by
  induction l with
  | nil => rfl
  | cons a l ih => cases hp : p a <;> simp [hp, ih]

theorem readPage_shown {α β : Type} {stage listKey : String} {pick : Json → Option (Option α)}
    {reply : FetchReply} {shown : List Json} {next : Option Json} {items : List β}
    {shows : Json → β → Prop} {pickItem : β → Option α}
    (hentries : pageEntries stage listKey reply = .ok (shown, next))
    (hshown : List.Forall₂ shows shown items)
    (hpick : ∀ entry item, shows entry item → pick entry = some (pickItem item)) :
    readPage stage listKey pick reply = .ok { found := items.filterMap pickItem, next } := by
  have hmap : shown.mapM pick = some (items.map pickItem) := by
    clear hentries
    induction hshown with
    | nil => rfl
    | cons hentry _ ih => simp [hpick _ _ hentry, ih]
  rw [readPage, hentries]
  simp only [hmap, List.filterMap_map]
  rfl

/-- The loop over a listing finds what the pages hold from its cursor on. -/
theorem listPages_meets {K : Contract ImaCall ImaCall.Answer World} {α β : Type} {items : List β}
    (paging : Paging items) (request : Json → ImaRequest)
    (read : FetchReply → Except Stop (ListPage α)) (pickItem : β → Option α) (fuel : Nat)
    (found : List α)
    (hasks : ∀ cursor, K.asks w (.fetch (request cursor)))
    (hread : ∀ cursor reply w', K.learns w (.fetch (request cursor)) reply w' → w' = w ∧
      ((∃ stop, read reply = .error stop) ∨
        read reply = .ok ⟨(paging.page cursor).filterMap pickItem, paging.next cursor⟩))
    {cursor : Json} {rest : List β}
    (hwalk : Walk paging.page paging.next cursor rest) :
    Prog.Meets K (fun w' r => w' = w ∧ ∀ listed, r = .ok listed → listed = found ++ rest.filterMap pickItem)
      w (listPages request read fuel cursor found) := by
  induction fuel generalizing cursor found rest with
  | zero => exact ⟨rfl, fun listed h => by cases h⟩
  | succ fuel ih =>
    refine ⟨hasks cursor, fun reply w' hlearns => ?_⟩
    obtain ⟨rfl, ⟨stop, hstop⟩ | hpage⟩ := hread cursor reply w' hlearns
    · simp only [hstop]
      exact ⟨rfl, fun listed h => by cases h⟩
    · simp only [hpage]
      cases hwalk with
      | last hnext =>
        simp only [hnext]
        exact ⟨rfl, fun listed h => by cases h; rfl⟩
      | more hnext hrest =>
        simp only [hnext]
        refine (ih _ hrest).mono fun w' r hr => ⟨hr.1, fun listed h => ?_⟩
        rw [hr.2 listed h, List.filterMap_append, List.append_assoc]

theorem onlyMatch_ok {α : Type} {error : Stop} {found : List α} {a : α}
    (h : onlyMatch error found = .ok a) : found = [a] := by
  unfold onlyMatch at h
  split at h
  · cases h
    rfl
  · cases h

/-- What the lookup of the knowledge base finds is the only one of the name. -/
theorem findUniqueKnowledgeBase_meets (fuel : Nat) :
    Prog.Meets (onceContract provider name month filename)
      (fun w' r => w' = w ∧ ∀ id, r = .ok id → ∃ baseId, id = some (.str baseId) ∧
        w.Target options.knowledgeBaseName baseId) w (findUniqueKnowledgeBase options fuel) := by
  let pickBase : Base → Option Value := fun base =>
    if base.name = options.knowledgeBaseName then some (some (.str base.id)) else none
  have hlisting := listPages_meets (K := onceContract provider name month filename) (w := w)
    (provider.basePages w) .getAddableKnowledgeBaseList
    (readPage "knowledge_base" "addable_knowledge_base_list"
      (pickKnowledgeBase options.knowledgeBaseName)) pickBase fuel [] (fun _ => trivial)
    (fun cursor reply w' hlearns => by
      obtain ⟨hw, ⟨stop, hstop⟩ | ⟨shown, hentries, hshown⟩⟩ := hlearns
      · exact ⟨hw, Or.inl ⟨stop, by rw [readPage, hstop]⟩⟩
      · refine ⟨hw, Or.inr (readPage_shown hentries hshown fun entry base hshows => ?_)⟩
        have hnull : entry ≠ .null := by
          rintro rfl
          cases hshows.1
        rw [pickKnowledgeBase.eq_2 _ _ hnull, hshows.1, hshows.2]
        by_cases hname : base.name = options.knowledgeBaseName <;> simp [pickBase, hname])
    (provider.basePages w).walk
  refine hlisting.andThen (fun w' found hfound => ?_) fun w' stop hstop =>
    ⟨hstop.1, fun id h => by cases h⟩
  refine ⟨hfound.1, fun id hid => ?_⟩
  have hone : (provider.basePages w).listed.filterMap pickBase = [id] := by
    rw [← onlyMatch_ok hid, hfound.2 found rfl, List.nil_append]
  have hbases : w.bases.filterMap pickBase = [id] :=
    List.perm_singleton.mp (hone ▸ ((provider.basePages w).perm.filterMap pickBase).symm)
  have hmap : (w.bases.filter (·.name = options.knowledgeBaseName)).map
      (fun base => some (Json.str base.id)) = [id] := by
    rw [← hbases, ← filterMap_ite]
    simp [pickBase]
  obtain ⟨base, hbase, rfl⟩ := List.map_eq_singleton_iff.mp hmap
  exact ⟨base.id, rfl, by rw [World.Target, hbase]; rfl⟩

/-- The listing of a month finds its folders in the knowledge base. -/
theorem listMonthFolders_meets (baseId : String) (fuel : Nat) :
    Prog.Meets (onceContract provider name month filename)
      (fun w' r => w' = w ∧ ∀ found, r = .ok found → found.Perm (w.monthFolders baseId month)) w
      (listMonthFolders (some (.str baseId)) month fuel) := by
  let pickEntry : Entry → Option String := fun entry =>
    if entry.isMonthFolder month then some entry.id else none
  have hlisting := listPages_meets (K := onceContract provider name month filename) (w := w)
    (provider.entryPages w baseId) (.getKnowledgeList (some (.str baseId)))
    (readPage "folder" "knowledge_list" (pickFolder month)) pickEntry fuel [] (fun _ => trivial)
    (fun cursor reply w' hlearns => by
      obtain ⟨hw, hanswers⟩ := hlearns
      rcases hanswers baseId rfl with ⟨stop, hstop⟩ | ⟨shown, hentries, hshown⟩
      · exact ⟨hw, Or.inl ⟨stop, by rw [readPage, hstop]⟩⟩
      · refine ⟨hw, Or.inr (readPage_shown hentries hshown fun shown entry hshows => ?_)⟩
        have hnull : shown ≠ .null := by
          rintro rfl
          cases hshows.1
        rw [pickFolder.eq_2 _ _ hnull, hshows.1, hshows.2]
        by_cases htitle : entry.title = month <;>
          simp [pickEntry, Entry.isMonthFolder, htitle])
    (provider.entryPages w baseId).walk
  refine hlisting.mono fun w' r hr => ⟨hr.1, fun found hfound => ?_⟩
  rw [hr.2 found hfound, List.nil_append, World.monthFolders, ← filterMap_ite]
  exact (provider.entryPages w baseId).perm.filterMap pickEntry

/-- What is known once the folder has been found. -/
def FolderFound (baseId month : String) (w w' : World) (r : Except Stop String) : Prop :=
  w'.bases = w.bases ∧ ∀ folderId, r = .ok folderId → w'.monthFolders baseId month = [folderId]

theorem uniqueFolder_found {found : List String} {baseId : String} (hbases : w'.bases = w.bases)
    (hfound : found.Perm (w'.monthFolders baseId month)) :
    FolderFound baseId month w w' (uniqueFolder found) := by
  refine ⟨hbases, fun folderId h => ?_⟩
  have hone := onlyMatch_ok h
  rw [hone] at hfound
  exact List.perm_singleton.mp hfound.symm

/-- The folder that is found is the only one of the month. -/
theorem findUniqueMonthFolder_meets (baseId : String) (fuel : Nat) :
    Prog.Meets (onceContract provider name month filename) (FolderFound baseId month w) w
      (findUniqueMonthFolder options (some (.str baseId)) month fuel) := by
  refine (listMonthFolders_meets baseId fuel).andThen ?_ fun w' stop hstop =>
    ⟨by rw [hstop.1], fun folderId h => by cases h⟩
  rintro w' found ⟨rfl, hfound⟩
  split
  · next webHeaders hheaders =>
    rw [createMonthFolder]
    cases folderTarget options webHeaders with
    | error e => exact ⟨rfl, fun folderId h => by cases h⟩
    | ok target =>
      refine ⟨trivial, fun reply w'' hlearns => ?_⟩
      have hbases : w''.bases = w'.bases := by
        rcases hlearns with rfl | ⟨_, _, rfl⟩ <;> rfl
      dsimp only
      cases folderFailure reply with
      | some e => exact ⟨hbases, fun folderId h => by cases h⟩
      | none =>
        refine (listMonthFolders_meets baseId fuel).andThen ?_ fun w₃ stop hstop =>
          ⟨by rw [hstop.1, hbases], fun folderId h => by cases h⟩
        rintro w₃ again ⟨rfl, hagain⟩
        exact uniqueFolder_found hbases (hagain again rfl)
  · exact uniqueFolder_found rfl (hfound _ rfl)

/-! ## The attempt -/

/-- From the creation of the media on, one `add_knowledge` is asked for. -/
theorem addArticle_meets (env : MirrorEnv) (input : MirrorInput) {baseId folderId : String}
    (heffects : w.effects = 0) (htarget : w.Target name baseId)
    (hfolder : folderId ∈ w.monthFolders baseId month) :
    Prog.Meets (onceContract provider name month filename) (fun _ _ => True) w
      (addArticle env input (some (.str baseId)) folderId filename) := by
  refine ⟨trivial, fun reply w' hmedia => ?_⟩
  obtain rfl : w' = w := hmedia
  dsimp only
  split
  · trivial
  · split
    · trivial
    · refine ⟨trivial, fun reply w' hput => ?_⟩
      obtain rfl : w' = _ := hput
      dsimp only
      split
      · trivial
      · refine ⟨trivial, fun now w' hnow => ?_⟩
        obtain rfl : w' = _ := hnow
        refine ⟨⟨heffects, rfl, baseId, rfl, htarget, hfolder⟩, fun reply w' _ => ?_⟩
        dsimp only
        split <;> trivial

/-- Where the marker is stored, it is there. -/
theorem storeMarker_meets (fingerprint : String) (marker : Marker) :
    Prog.Meets (onceContract provider name month filename)
      (fun w' r => r = .ok () → w'.HasMarker options) w (storeMarker options fingerprint marker) := by
  unfold storeMarker
  split
  · next hstore =>
    refine ⟨trivial, fun reply w' hlearns => ?_⟩
    rcases hlearns with ⟨rfl, rfl⟩ | ⟨state, hstate, rfl⟩
    · intro h
      cases h
    · cases reply <;> simp [Prog.Meets, World.HasMarker, hstore, hstate]
  · next hstore =>
    refine ⟨trivial, fun reply w' hlearns => ?_⟩
    rcases hlearns with ⟨rfl, rfl⟩ | rfl
    · intro h
      cases h
    · cases reply <;> simp [Prog.Meets, World.HasMarker, hstore]

theorem completeMirror_meets (env : MirrorEnv) (fingerprint : String) (input : MirrorInput)
    (knowledgeBaseId : Value) :
    Prog.Meets (onceContract provider name month filename)
      (fun w' r => r = .ok () → w'.HasMarker options) w
      (completeMirror env options fingerprint input knowledgeBaseId) := by
  refine ⟨trivial, fun now w' hnow => ?_⟩
  obtain rfl : w' = w := hnow
  split
  · exact storeMarker_meets fingerprint _
  · intro h
    cases h

/-- An article that is not in the only folder of its month has not been added. -/
theorem effects_eq_zero {baseId folderId : String} (h : Inv name month filename w)
    (htarget : w.Target name baseId) (hfolder : w.monthFolders baseId month = [folderId])
    (hnew : ⟨baseId, folderId, filename⟩ ∉ w.filed) : w.effects = 0 := by
  by_contra hsome
  have hone : w.effects = 1 := by
    have := h.once
    omega
  obtain ⟨baseId', folderId', htarget', hfolder', hfiled⟩ := h.filed hone
  have hbase : [baseId] = [baseId'] := htarget.symm.trans htarget'
  cases hbase
  rw [hfolder, List.mem_singleton] at hfolder'
  exact hnew (hfolder' ▸ hfiled)

/-- From the folder of the month on. -/
theorem mirrorArticle_meets (env : MirrorEnv) (fuel : Nat) (fingerprint : String)
    {input : MirrorInput}
    (hlocation : ∀ location, buildImaLocation input.filename = .ok location →
      location = ⟨filename, month⟩)
    {baseId : String} (h : Inv name month filename w) (htarget : w.Target name baseId) :
    Prog.Meets (onceContract provider name month filename)
      (fun w' r => r = .ok () → w'.HasMarker options) w
      (mirrorArticle env options fuel fingerprint input (some (.str baseId))) := by
  unfold mirrorArticle
  cases hbuilt : buildImaLocation input.filename with
  | error stop => exact fun h => by cases h
  | ok location =>
  obtain rfl := hlocation location hbuilt
  refine ((findUniqueMonthFolder_meets baseId fuel).keeps
    (fun _ _ _ _ => inv_learns) h).andThen ?_ fun w' stop _ => (fun h => by cases h)
  rintro w' folderId ⟨hinv, hbases, hfolder⟩
  refine ⟨trivial, fun reply w'' hlearns => ?_⟩
  obtain ⟨rfl, hchecked⟩ := hlearns
  have hfolder := hfolder folderId rfl
  have htarget : w''.Target name baseId := by rwa [World.Target, hbases]
  dsimp only
  cases hrepeated : readRepeated reply with
  | error e => exact fun h => by cases h
  | ok repeated =>
    cases repeated with
    | true => exact fun h => by cases h
    | false =>
      have hnew : ⟨baseId, folderId, filename⟩ ∉ w''.filed := by
        rcases hchecked baseId rfl with ⟨stop, hstop⟩ | hok
        · rw [hrepeated] at hstop
          cases hstop
        · rw [hrepeated] at hok
          exact of_decide_eq_false (Except.ok.inj hok).symm
      refine (addArticle_meets env input (effects_eq_zero hinv htarget hfolder hnew) htarget
        (by rw [hfolder]; exact List.mem_singleton_self _)).andThen (fun w₃ _ _ => ?_)
        fun w₃ stop _ => (fun h => by cases h)
      exact completeMirror_meets env fingerprint input _

theorem isMirrored_meets (fingerprint : String) :
    Prog.Meets (onceContract provider name month filename)
      (fun w' r => w' = w ∧ (r = .ok true → w'.HasMarker options)) w
      (isMirrored options fingerprint) := by
  unfold isMirrored
  split
  · next hstore =>
    refine ⟨trivial, fun reply w' hlearns => ?_⟩
    obtain ⟨rfl, rfl | rfl⟩ := hlearns
    · exact ⟨rfl, fun h => by cases h⟩
    · refine ⟨rfl, fun h => ?_⟩
      rw [World.HasMarker, if_pos hstore]
      simpa using h
  · next hstore =>
    refine ⟨trivial, fun reply w' hlearns => ?_⟩
    obtain ⟨rfl, rfl | rfl⟩ := hlearns
    · exact ⟨rfl, fun h => by cases h⟩
    · refine ⟨rfl, fun h => ?_⟩
      rw [World.HasMarker, if_neg hstore]
      exact Except.ok.inj h

/-- The knowledge base that is used is the only one of the name. -/
theorem knowledgeBase_meets (fuel : Nat) (h : Inv options.knowledgeBaseName month filename w) :
    Prog.Meets (onceContract provider options.knowledgeBaseName month filename)
      (fun w' r => ∀ id, r = .ok id → ∃ baseId, id = some (.str baseId) ∧
        w'.Target options.knowledgeBaseName baseId) w (knowledgeBase options fuel) := by
  refine ⟨trivial, fun reply w' hlearns => ?_⟩
  obtain ⟨rfl, rfl⟩ := hlearns
  rcases h.kept with hnone | ⟨baseId, hkept, htarget⟩
  · rw [hnone]
    refine (findUniqueKnowledgeBase_meets fuel).andThen ?_ fun w₃ stop _ => (fun id h => by cases h)
    rintro w₃ id ⟨rfl, hid⟩
    obtain ⟨baseId, rfl, htarget⟩ := hid id rfl
    refine ⟨⟨baseId, rfl, htarget⟩, fun _ w₄ hwritten => ?_⟩
    obtain rfl : w₄ = _ := hwritten
    intro id hid
    cases hid
    exact ⟨baseId, rfl, htarget⟩
  · rw [hkept]
    intro id hid
    cases hid
    exact ⟨baseId, rfl, htarget⟩

/-- An attempt asks for `add_knowledge` only once, and has left the marker when it returns. -/
theorem mirror_meets (env : MirrorEnv) (fuel : Nat) (henabled : options.enabled = true)
    {input : MirrorInput}
    (hlocation : ∀ location, buildImaLocation input.filename = .ok location →
      location = ⟨filename, month⟩)
    (h : Inv options.knowledgeBaseName month filename w) :
    Prog.Meets (onceContract provider options.knowledgeBaseName month filename)
      (fun w' r => r = .ok () → w'.HasMarker options) w (mirror env options fuel input) := by
  have htry : Prog.Meets (onceContract provider options.knowledgeBaseName month filename)
      (fun w' r => r = .ok () → w'.HasMarker options) w (tryMirror env options fuel input) := by
    unfold tryMirror
    split
    · intro h
      cases h
    · next fingerprint _ =>
      refine (isMirrored_meets fingerprint).andThen ?_ fun w' stop _ => (fun h => by cases h)
      rintro w' mirrored ⟨rfl, hmarker⟩
      split
      · next hmirrored =>
        intro _
        exact hmarker (by rw [hmirrored])
      · refine ((knowledgeBase_meets fuel h).keeps (fun _ _ _ _ => inv_learns) h).andThen ?_
          fun w' stop _ => (fun h => by cases h)
        rintro w'' id ⟨hinv, hid⟩
        obtain ⟨baseId, rfl, htarget⟩ := hid id rfl
        exact mirrorArticle_meets env fuel fingerprint hlocation hinv htarget
  unfold mirror
  rw [if_pos henabled]
  refine Prog.Meets.bind (htry.mono fun w' r hr => ?_)
  cases r with
  | ok _ => exact hr
  | error stop => exact fun h => by cases h

/-! ## All attempts -/

/-- What may happen from one attempt to the next. -/
inductive Step (provider : Provider) (env : MirrorEnv) (options : MirrorOptions)
    (sourceUrl archiveFilename : String) (w : World) : World → Prop
  /-- An attempt, which returns, throws, or is cut off. -/
  | attempt {content : String} {fuel : Nat} {w' : World} {result : Option (Except Stop Unit)}
      (h : Prog.Reaches (learns provider) w
        (mirror env options fuel ⟨content, archiveFilename, sourceUrl⟩) w' result) :
      Step provider env options sourceUrl archiveFilename w w'
  /-- The process starts again, and the closure is a new one. -/
  | restart : Step provider env options sourceUrl archiveFilename w { w with knowledgeBaseId := none }
  /-- The closure has mirrored another source. -/
  | share (baseId : String) (h : w.Target options.knowledgeBaseName baseId) :
      Step provider env options sourceUrl archiveFilename w
        { w with knowledgeBaseId := some (.str baseId) }
  /-- Others add to the knowledge bases. -/
  | grow (entries : List Entry) (filed : List Filed) :
      Step provider env options sourceUrl archiveFilename w
        { w with entries := w.entries ++ entries, filed := w.filed ++ filed }

variable {env : MirrorEnv} {sourceUrl archiveFilename : String}

/-- Where an article of the archive goes; a filename that is not accepted goes nowhere. -/
def locationOf (archiveFilename : String) : ImaLocation :=
  (buildImaLocation archiveFilename).toOption.getD ⟨"", ""⟩

theorem locationOf_eq (location : ImaLocation) (h : buildImaLocation archiveFilename = .ok location) :
    location = ⟨(locationOf archiveFilename).filename, (locationOf archiveFilename).month⟩ := by
  rw [locationOf, h]
  rfl

theorem attempt_meets (henabled : options.enabled = true) (content : String) (fuel : Nat)
    (h : Inv options.knowledgeBaseName (locationOf archiveFilename).month
      (locationOf archiveFilename).filename w) :
    Prog.Meets (onceContract provider options.knowledgeBaseName (locationOf archiveFilename).month
        (locationOf archiveFilename).filename)
      (fun w' r => r = .ok () → w'.HasMarker options) w
      (mirror env options fuel ⟨content, archiveFilename, sourceUrl⟩) :=
  mirror_meets env fuel henabled locationOf_eq h

/-- What happens from one attempt to the next keeps the invariant. -/
theorem inv_step (henabled : options.enabled = true)
    (h : Inv options.knowledgeBaseName (locationOf archiveFilename).month
      (locationOf archiveFilename).filename w)
    (hstep : Step provider env options sourceUrl archiveFilename w w') :
    Inv options.knowledgeBaseName (locationOf archiveFilename).month
      (locationOf archiveFilename).filename w' := by
  cases hstep with
  | attempt hreaches =>
    exact ((attempt_meets henabled _ _ h).reaches (fun _ _ _ _ => inv_learns) h hreaches).1
  | restart => exact ⟨h.once, h.filed, Or.inl rfl⟩
  | share baseId htarget => exact ⟨h.once, h.filed, Or.inr ⟨baseId, rfl, htarget⟩⟩
  | grow entries filed =>
    refine ⟨h.once, fun heffects => ?_, h.kept⟩
    obtain ⟨baseId, folderId, htarget, hfolder, hfiled⟩ := h.filed heffects
    exact ⟨baseId, folderId, htarget, monthFolders_append hfolder _ _, List.mem_append_left _ hfiled⟩

end Attempts

/--
**An article is mirrored at most once.** However many attempts for a source are made, with one
filename, and wherever they are cut off: at most one `add_knowledge` takes effect, and an attempt that
returns has left the marker.
-/
theorem mirrored_once (provider : Provider) (env : MirrorEnv) (options : MirrorOptions)
    (henabled : options.enabled = true) (sourceUrl archiveFilename : String) (w₀ w : World)
    (hfresh : w₀.effects = 0) (hclosure : w₀.knowledgeBaseId = none)
    (hrun : Relation.ReflTransGen (Step provider env options sourceUrl archiveFilename) w₀ w) :
    w.effects ≤ 1 ∧ ∀ content fuel w',
      Prog.Reaches (learns provider) w (mirror env options fuel ⟨content, archiveFilename, sourceUrl⟩) w'
        (some (.ok ())) → w'.HasMarker options := by
  have hstart : Inv options.knowledgeBaseName (locationOf archiveFilename).month
      (locationOf archiveFilename).filename w₀ :=
    ⟨by omega, fun heffects => by omega, Or.inl hclosure⟩
  have hinv : Inv options.knowledgeBaseName (locationOf archiveFilename).month
      (locationOf archiveFilename).filename w := by
    induction hrun with
    | refl => exact hstart
    | tail _ hstep ih => exact inv_step henabled ih hstep
  refine ⟨hinv.once, fun content fuel w' hreaches => ?_⟩
  exact ((attempt_meets henabled content fuel hinv).reaches (fun _ _ _ _ => inv_learns) hinv
    hreaches).2 _ rfl rfl

namespace LostAnswer

/-- All items on one page. -/
def onePage {α : Type} (items : List α) : Paging items where
  page _ := items
  next _ := none
  listed := items
  walk := .last rfl
  perm := .refl _

def provider : Provider where
  basePages w := onePage w.bases
  entryPages w baseId := onePage (w.entries.filter (·.baseId = baseId))

def showBase (base : Base) : Json := .obj [("id", .str base.id), ("name", .str base.name)]

def showEntry (entry : Entry) : Json := .obj [("media_id", .str entry.id), ("title", .str entry.title)]

def listReply (listKey : String) (shown : List Json) : FetchReply :=
  some (true, some (.obj [("data", .obj [("is_end", .bool true), (listKey, .arr shown)])]))

def mediaReply : FetchReply := some (true, some (.obj
  [ ("media_id", .str "media"),
    ("cos_credential", .obj [ ("bucket_name", .str "b"), ("region", .str "r"), ("cos_key", .str "k"),
      ("secret_key", .str "s") ]) ]))

def repeatedReply (repeated : Bool) : FetchReply :=
  some (true, some (.obj [("results", .arr [.obj [("is_repeated", .bool repeated)]])]))

/-- The article is added, but the answer to `add_knowledge` does not arrive. -/
def serve (w : World) : (c : ImaCall) → World × c.Answer
  | .fetch (.getAddableKnowledgeBaseList _) =>
    (w, listReply "addable_knowledge_base_list" (w.bases.map showBase))
  | .fetch (.getKnowledgeList (some (.str baseId)) _) =>
    (w, listReply "knowledge_list" ((w.entries.filter (·.baseId = baseId)).map showEntry))
  | .fetch (.checkRepeatedNames (some (.str baseId)) folderId name) =>
    (w, repeatedReply (decide (⟨baseId, folderId, name⟩ ∈ w.filed)))
  | .fetch (.createMedia ..) | .fetch (.putObject ..) => (w, mediaReply)
  | .fetch (.addKnowledge (some (.str baseId)) folderId title _ _ _ _) =>
    ({ w with filed := w.filed ++ [⟨baseId, folderId, title⟩], effects := w.effects + 1 }, none)
  | .fetch _ => (w, none)
  | .now => (w, 0)
  | .getState _ => (w, .ok w.state)
  | .markerExists _ => (w, .ok w.hasMarkerFile)
  | .putState .. | .writeMarker .. => (w, .error ())
  | .readKnowledgeBaseId => (w, w.knowledgeBaseId)
  | .writeKnowledgeBaseId id => ({ w with knowledgeBaseId := id }, ())

theorem forall₂_shows {α : Type} {shows : Json → α → Prop} {json : α → Json}
    (h : ∀ item, shows (json item) item) (items : List α) :
    List.Forall₂ shows (items.map json) items := by
  rw [List.forall₂_map_left_iff, List.forall₂_same]
  exact fun item _ => h item

theorem showBase_shows (base : Base) : ShowsBase (showBase base) base := ⟨rfl, rfl⟩

theorem showEntry_shows (entry : Entry) : ShowsEntry (showEntry entry) entry := ⟨rfl, rfl⟩

theorem serve_learns (w : World) (c : ImaCall) : learns provider w c (serve w c).2 (serve w c).1 := by
  cases c with
  | fetch request =>
    cases request with
    | getAddableKnowledgeBaseList cursor =>
      exact ⟨rfl, Or.inr ⟨w.bases.map showBase, rfl, forall₂_shows showBase_shows w.bases⟩⟩
    | getKnowledgeList id cursor =>
      match id with
      | some (.str baseId) =>
        refine ⟨rfl, fun b hb => ?_⟩
        cases hb
        exact Or.inr ⟨_, rfl, forall₂_shows showEntry_shows _⟩
      | none | some .null | some (.bool _) | some (.num _) | some (.arr _) | some (.obj _) =>
        exact ⟨rfl, fun b hb => by cases hb⟩
    | createFolder base title => exact Or.inl rfl
    | checkRepeatedNames id folderId title =>
      match id with
      | some (.str baseId) =>
        refine ⟨rfl, fun b hb => ?_⟩
        cases hb
        exact Or.inr rfl
      | none | some .null | some (.bool _) | some (.num _) | some (.arr _) | some (.obj _) =>
        exact ⟨rfl, fun b hb => by cases hb⟩
    | createMedia id fileName fileSize => exact rfl
    | putObject hostname pathname content => exact rfl
    | addKnowledge id folderId title mediaId cosKey fileSize lastModifyTime =>
      match id with
      | some (.str baseId) => exact Or.inr ⟨baseId, rfl, rfl⟩
      | none | some .null | some (.bool _) | some (.num _) | some (.arr _) | some (.obj _) =>
        exact Or.inl ⟨rfl, _, rfl⟩
  | now => exact rfl
  | getState key => exact ⟨rfl, Or.inr rfl⟩
  | putState key marker => exact Or.inl ⟨rfl, rfl⟩
  | markerExists path => exact ⟨rfl, Or.inr rfl⟩
  | writeMarker path marker => exact Or.inl ⟨rfl, rfl⟩
  | readKnowledgeBaseId => exact ⟨rfl, rfl⟩
  | writeKnowledgeBaseId id => exact rfl

def options : MirrorOptions where
  enabled := true
  knowledgeBaseName := "inbox"
  stateDirectory := "/state"
  hasStateStore := true
  webHeaders := none
  webKnowledgeBaseId := none

def env : MirrorEnv where
  sourceFingerprint := some
  renderImaMarkdownCopy content := content
  sha256Hex text := text
  encodeUriComponent text := text

def start : World where
  bases := [⟨"kb", "inbox"⟩]
  entries := [⟨"kb", "folder_1", "202601"⟩]
  filed := []
  state := none
  hasMarkerFile := false
  knowledgeBaseId := none
  effects := 0

/-- The world after an attempt. -/
def afterAttempt (w : World) : World :=
  ((mirror env options 1 ⟨"text", "20260102-title.md", "https://example.com/a"⟩).exec serve w).1

theorem mirrored_once_lostAnswer :
    (afterAttempt (afterAttempt start)).effects ≤ 1 ∧ ∀ content fuel w',
      Prog.Reaches (learns provider) (afterAttempt (afterAttempt start))
        (mirror env options fuel ⟨content, "20260102-title.md", "https://example.com/a"⟩) w'
        (some (.ok ())) → w'.HasMarker options :=
  mirrored_once provider env options rfl "https://example.com/a" "20260102-title.md" start
    (afterAttempt (afterAttempt start)) rfl rfl
    (.tail (.single (.attempt (Prog.reaches_exec serve_learns _ _)))
      (.attempt (Prog.reaches_exec serve_learns _ _)))

end LostAnswer

end InboxServer.Ima
