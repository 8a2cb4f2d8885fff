import InboxServer.Infra.Throwing
import InboxServer.Release.ManifestParser

/-!
# What the hash of a release plan binds

Every field of an accepted manifest document is in the manifest that is read, and the canonical text
of a plan can be read back. So where SHA-256 has no collisions two plans have one hash if they are
for the same action and the same manifest, and only then.

* `agree_parseReleaseManifest` — the order of the fields of a document does not matter
* `parse_ok` — an accepted document has the fields of the manifest, and no others
* `planJson_inj` — the document that is hashed tells the action and the manifest
* `planHash_binds` — what a hash was given for is what it stands for
-/

namespace InboxServer.ReleaseDocument

open Release Json Infra.Throwing

/-! ## Values that are the same -/

theorem lookup_same {fields fields' : Fields} (h : Same (.obj fields) (.obj fields')) (name : String) :
    Option.Rel Same (fields.lookup name) (fields'.lookup name) := (same_iff.mp h).2 (.key name)

theorem mem_names_iff {fields fields' : Fields} (h : Same (.obj fields) (.obj fields')) (name : String) :
    name ∈ fields.map Prod.fst ↔ name ∈ fields'.map Prod.fst := by
  have hlookup := lookup_same h name
  rw [← isSome_lookup, ← isSome_lookup]
  generalize fields.lookup name = left, fields'.lookup name = right at hlookup
  rcases hlookup with _ | _ <;> rfl

/-- Read as a record, both values give the same one, or both throw alike. -/
theorem agree_record_of {v w : Option Json} (h : Option.Rel Same v w) (path : String) :
    Agree (fun fields fields' => (v = some (.obj fields) ∧ w = some (.obj fields')) ∧
      Same (.obj fields) (.obj fields')) (record v path) (record w path) := by
  rcases h with @⟨v, w, h⟩ | _
  · have hnode := (same_iff.mp h).1
    rcases v with _ | _ | _ | _ | _ | fields <;> rcases w with _ | _ | _ | _ | _ | fields' <;>
      simp only [node, reduceCtorEq] at hnode
    on_goal 6 => exact .ok ⟨⟨rfl, rfl⟩, h⟩
    all_goals exact .error _ _
  · exact .error _ _

theorem agree_record {v w : Option Json} (h : Option.Rel Same v w) (path : String) :
    Agree (fun fields fields' => Same (.obj fields) (.obj fields')) (record v path) (record w path) :=
  (agree_record_of h path).mono fun _ _ hsame => hsame.2

theorem exactKeys_ok {fields : Fields} {allowed : List String} {path : String} :
    exactKeys fields allowed path = .ok () ↔ ∀ name ∈ fields.map Prod.fst, name ∈ allowed := by
  unfold exactKeys
  simp only [List.filter_eq_nil_iff, decide_eq_true_eq, not_not]
  split_ifs with h
  · exact ⟨fun _ => h, fun _ => rfl⟩
  · exact ⟨nofun, fun h' => absurd h' h⟩

theorem agree_exactKeys {fields fields' : Fields} (h : Same (.obj fields) (.obj fields'))
    (allowed : List String) (path : String) :
    Agree Eq (exactKeys fields allowed path) (exactKeys fields' allowed path) := by
  refine .of_ok_iff ?_
  rw [exactKeys_ok, exactKeys_ok]
  exact forall_congr' fun name => imp_congr_left (mem_names_iff h name)

/-- A text is read alike from values that are the same. -/
theorem text_same {v w : Option Json} (h : Option.Rel Same v w) (path : String) :
    text v path = text w path := by
  rcases h with @⟨v, w, h⟩ | _
  · have hnode := (same_iff.mp h).1
    rcases v with _ | _ | _ | s | _ | _ <;> rcases w with _ | _ | _ | s' | _ | _ <;>
      simp only [node, reduceCtorEq, Node.str.injEq] at hnode
    on_goal 4 => rw [hnode]
    all_goals rfl
  · rfl

theorem tested_same {v w : Option Json} (h : Option.Rel Same v w) (test : String → Bool)
    (message path : String) : tested test message v path = tested test message w path := by
  rw [tested, tested, text_same h]

theorem httpsUrl_same (platform : Platform) {v w : Option Json} (h : Option.Rel Same v w)
    (path : String) : httpsUrl platform v path = httpsUrl platform w path := by
  rw [httpsUrl, httpsUrl, text_same h]

theorem positiveInteger_same {v w : Option Json} (h : Option.Rel Same v w) (path : String) :
    positiveInteger v path = positiveInteger w path := by
  rcases h with @⟨v, w, h⟩ | _
  · have hnode := (same_iff.mp h).1
    rcases v with _ | _ | _ | _ | _ | _ <;> rcases w with _ | _ | _ | _ | _ | _ <;>
      simp only [node, reduceCtorEq, Node.num.injEq] at hnode
    on_goal 3 => rw [hnode]
    all_goals rfl
  · rfl

theorem agree_imageVersions {v w : Option Json} (h : Option.Rel Same v w) (path : String) :
    Agree Eq (imageVersions v path) (imageVersions w path) := by
  refine (agree_record h path).bind fun fields fields' hsame => ?_
  refine (agree_exactKeys hsame _ _).bind fun _ _ _ => ?_
  rw [text_same (lookup_same hsame "previous"), text_same (lookup_same hsame "target")]
  exact .of_eq rfl

/-- The items of two arrays that are the same are read alike, one by one. -/
theorem agree_mapM {α : Type} {read : Json × Nat → Except String α} {items items' : List Json}
    (h : List.Forall₂ Same items items')
    (hread : ∀ v w i, Same v w → Agree Eq (read (v, i)) (read (w, i))) (i : Nat) :
    Agree Eq ((items.zipIdx i).mapM read) ((items'.zipIdx i).mapM read) := by
  induction h generalizing i with
  | nil => exact .ok rfl
  | cons hsame _ ih =>
    simp only [List.zipIdx_cons, List.mapM_cons]
    refine (hread _ _ i hsame).bind fun a _ ha => ?_
    subst ha
    refine (ih (i + 1)).bind fun as _ has => ?_
    subst has
    exact .ok rfl

theorem agree_migrationList {v w : Option Json} (h : Option.Rel Same v w) :
    Agree Eq (migrationList v) (migrationList w) := by
  rcases h with @⟨v, w, h⟩ | _
  · have hnode := (same_iff.mp h).1
    rcases w with _ | _ | _ | _ | items' | _
    on_goal 5 =>
      obtain ⟨items, rfl, hitems⟩ := same_arr.mp h
      rcases hitems with _ | ⟨hitem, hitems⟩
      · exact .error _ _
      · refine Agree.bind (agree_mapM (.cons hitem hitems) (fun v w i hsame => ?_) 0) fun a _ ha => ?_
        · exact .of_eq (tested_same (.some hsame) _ _ _)
        · subst ha
          exact .of_eq rfl
    all_goals
      rcases v with _ | _ | _ | _ | _ | _ <;> simp only [node, reduceCtorEq] at hnode
      exact .error _ _
  · exact .error _ _

theorem agree_secretRef {v w : Json} (h : Same v w) (path : String) :
    Agree Eq (secretRef v path) (secretRef w path) := by
  refine (agree_record (.some h) path).bind fun fields fields' hsame => ?_
  refine (agree_exactKeys hsame _ _).bind fun _ _ _ => ?_
  rw [text_same (lookup_same hsame "name"), text_same (lookup_same hsame "versionRef")]
  exact .of_eq rfl

theorem agree_secretRefs {v w : Option Json} (h : Option.Rel Same v w) :
    Agree Eq (secretRefs v) (secretRefs w) := by
  rcases h with @⟨v, w, h⟩ | _
  · have hnode := (same_iff.mp h).1
    rcases w with _ | _ | _ | _ | items' | _
    on_goal 5 =>
      obtain ⟨items, rfl, hitems⟩ := same_arr.mp h
      rcases hitems with _ | ⟨hitem, hitems⟩
      · exact .error _ _
      · exact agree_mapM (.cons hitem hitems) (fun v w i hsame => agree_secretRef hsame _) 0
    all_goals
      rcases v with _ | _ | _ | _ | _ | _ <;> simp only [node, reduceCtorEq] at hnode
      exact .error _ _
  · exact .error _ _

/-! ## Names at any depth -/

/-- An object somewhere in the value has a field of this name. -/
def HasName (v : Json) (name : String) : Prop := ∃ path, (follow (path ++ [.key name]) v).isSome = true

theorem hasName_same {v w : Json} (h : Same v w) {name : String} (hname : HasName v name) :
    HasName w name := by
  obtain ⟨path, hpath⟩ := hname
  refine ⟨path, ?_⟩
  rw [← Option.isSome_map (f := node)] at hpath ⊢
  rwa [← h]

/-- A name is in a value where it is one of its own, or one of a child. -/
theorem hasName_iff {v : Json} {name : String} : HasName v name ↔
    (v.child (.key name)).isSome = true ∨ ∃ place w, v.child place = some w ∧ HasName w name := by
  constructor
  · rintro ⟨_ | ⟨place, path⟩, h⟩
    · left
      rw [List.nil_append, follow] at h
      rcases hchild : v.child (.key name) with _ | w
      · rw [hchild] at h
        cases h
      · rfl
    · right
      rw [List.cons_append, follow] at h
      rcases hchild : v.child place with _ | w
      · rw [hchild] at h
        cases h
      · rw [hchild] at h
        exact ⟨place, w, hchild, path, h⟩
  · rintro (h | ⟨place, w, hchild, path, h⟩)
    · obtain ⟨w, hw⟩ := Option.isSome_iff_exists.mp h
      exact ⟨[], by rw [List.nil_append, follow, hw]; rfl⟩
    · exact ⟨place :: path, by rw [List.cons_append, follow, hchild]; exact h⟩

/-- In a list it is in one of the items. -/
theorem hasName_arr {items : List Json} {name : String} :
    HasName (.arr items) name ↔ ∃ item ∈ items, HasName item name := by
  rw [hasName_iff]
  constructor
  · rintro (h | ⟨_ | i, w, hchild, h⟩)
    · cases h
    · cases hchild
    · exact ⟨w, List.mem_of_getElem? hchild, h⟩
  · rintro ⟨item, hitem, h⟩
    obtain ⟨i, hi⟩ := List.getElem?_of_mem hitem
    exact .inr ⟨.index i, item, hi, h⟩

/-- In an object it is one of the names, or in one of the values. -/
theorem hasName_obj {fields : Fields} {name : String} (hnames : (fields.map Prod.fst).Nodup) :
    HasName (.obj fields) name ↔ ∃ e ∈ fields, e.1 = name ∨ HasName e.2 name := by
  rw [hasName_iff]
  constructor
  · rintro (h | ⟨key | _, w, hchild, h⟩)
    · obtain ⟨e, he, rfl⟩ := List.mem_map.mp (isSome_lookup.mp h)
      exact ⟨e, he, .inl rfl⟩
    · obtain ⟨before, after, rfl, -⟩ := List.lookup_eq_some_iff.mp hchild
      exact ⟨(key, w), by simp, .inr h⟩
    · cases hchild
  · rintro ⟨e, he, rfl | h⟩
    · exact .inl (isSome_lookup.mpr (List.mem_map_of_mem he))
    · exact .inr ⟨.key e.1, e.2, lookup_eq_some_of_mem hnames he, h⟩

mutual

/-- The check passes a value if there is no sensitive name in it, at any depth. -/
theorem rejectSensitiveMaterial_ok : ∀ {v : Json} (path : String), v.keyed →
    (rejectSensitiveMaterial v path = .ok () ↔ ∀ name, HasName v name → isSensitiveName name = false)
  | .null, _, _ | .bool _, _, _ | .num _, _, _ | .str _, _, _ => by
    refine ⟨fun _ name hname => ?_, fun _ => rfl⟩
    rcases hasName_iff.mp hname with h | ⟨_ | _, w, hchild, -⟩
    · cases h
    · cases hchild
    · cases hchild
  | .arr items, path, hkeyed => by
    rw [rejectSensitiveMaterial, rejectSensitiveItems_ok 0 path hkeyed]
    constructor
    · intro h name hname
      obtain ⟨item, hitem, hname⟩ := hasName_arr.mp hname
      exact h item hitem name hname
    · intro h item hitem name hname
      exact h name (hasName_arr.mpr ⟨item, hitem, hname⟩)
  | .obj fields, path, hkeyed => by
    rw [rejectSensitiveMaterial, rejectSensitiveFields_ok path hkeyed.2]
    constructor
    · intro h name hname
      obtain ⟨e, he, rfl | hname⟩ := (hasName_obj hkeyed.1).mp hname
      · exact (h e he).1
      · exact (h e he).2 name hname
    · intro h e he
      exact ⟨h e.1 ((hasName_obj hkeyed.1).mpr ⟨e, he, .inl rfl⟩),
        fun name hname => h name ((hasName_obj hkeyed.1).mpr ⟨e, he, .inr hname⟩)⟩

/-- A list is let through exactly where no item has a sensitive name anywhere. -/
theorem rejectSensitiveItems_ok : ∀ {items : List Json} (i : Nat) (path : String), keyedItems items →
    (rejectSensitiveItems items i path = .ok () ↔
      ∀ item ∈ items, ∀ name, HasName item name → isSensitiveName name = false)
  | [], _, _, _ => by simp [rejectSensitiveItems]
  | item :: items, i, path, hkeyed => by
    rw [rejectSensitiveItems, bind_ok, List.forall_mem_cons,
      ← rejectSensitiveMaterial_ok (path ++ "[" ++ toString i ++ "]") hkeyed.1,
      ← rejectSensitiveItems_ok (i + 1) path hkeyed.2]
    exact ⟨fun ⟨_, h, h'⟩ => ⟨h, h'⟩, fun ⟨h, h'⟩ => ⟨(), h, h'⟩⟩

/-- An object is let through exactly where neither it nor a value of it has one. -/
theorem rejectSensitiveFields_ok : ∀ {fields : Fields} (path : String), keyedFields fields →
    (rejectSensitiveFields fields path = .ok () ↔ ∀ e ∈ fields,
      isSensitiveName e.1 = false ∧ ∀ name, HasName e.2 name → isSensitiveName name = false)
  | [], _, _ => by simp [rejectSensitiveFields]
  | (key, child) :: fields, path, hkeyed => by
    rw [rejectSensitiveFields, List.forall_mem_cons,
      ← rejectSensitiveMaterial_ok (path ++ "." ++ key) hkeyed.1,
      ← rejectSensitiveFields_ok path hkeyed.2]
    rcases hkey : isSensitiveName key with _ | _
    · rw [if_neg (by simp), bind_ok]
      exact ⟨fun ⟨_, h, h'⟩ => ⟨⟨rfl, h⟩, h'⟩, fun ⟨⟨_, h⟩, h'⟩ => ⟨(), h, h'⟩⟩
    · rw [if_pos rfl]
      exact ⟨nofun, fun h => by simp at h⟩

end

theorem agree_rejectSensitiveMaterial {v w : Json} (hv : v.keyed) (hw : w.keyed) (h : Same v w)
    (path : String) :
    Agree Eq (rejectSensitiveMaterial v path) (rejectSensitiveMaterial w path) := by
  refine .of_ok_iff ?_
  rw [rejectSensitiveMaterial_ok path hv, rejectSensitiveMaterial_ok path hw]
  exact ⟨fun hok name hname => hok name (hasName_same h.symm hname),
    fun hok name hname => hok name (hasName_same h hname)⟩

/-! ## The order of the fields does not matter -/

section Sections

variable (platform : Platform) {fields fields' : Fields} (h : Same (.obj fields) (.obj fields'))

include h

theorem readBackup_same : readBackup platform fields = readBackup platform fields' := by
  simp only [readBackup, timestamp, text_same (lookup_same h _), tested_same (lookup_same h _)]

theorem readApi_same : readApi fields = readApi fields' := by
  simp only [readApi, text_same (lookup_same h _)]

theorem readConsole_same : readConsole fields = readConsole fields' := by
  simp only [readConsole, safePath, commit, text_same (lookup_same h _),
    tested_same (lookup_same h _)]

theorem agree_readDatabase : Agree Eq (readDatabase fields) (readDatabase fields') := by
  refine (agree_migrationList (lookup_same h _)).bind fun migrations _ hmigrations => ?_
  subst hmigrations
  exact .of_eq (by rw [text_same (lookup_same h _)])

theorem readExitGate_same : readExitGate platform fields = readExitGate platform fields' := by
  simp only [readExitGate, httpsUrl_same platform (lookup_same h _),
    positiveInteger_same (lookup_same h _)]

theorem agree_readImages : Agree Eq (readImages fields) (readImages fields') := by
  refine (agree_imageVersions (lookup_same h _) _).bind fun mihomo _ hmihomo => ?_
  refine (agree_imageVersions (lookup_same h _) _).bind fun warp _ hwarp => ?_
  refine (agree_imageVersions (lookup_same h _) _).bind fun worker _ hworker => ?_
  subst hmihomo hwarp hworker
  exact .of_eq rfl

theorem agree_readSealos {images images' : Fields} (himages : Same (.obj images) (.obj images')) :
    Agree Eq (readSealos fields images) (readSealos fields' images') := by
  refine (Agree.of_eq (tested_same (lookup_same h _) _ _ _)).bind fun context _ hcontext => ?_
  refine (agree_readImages himages).bind fun read _ hread => ?_
  subst hcontext hread
  refine .of_eq ?_
  simp only [safePath, text_same (lookup_same h _), tested_same (lookup_same h _)]

end Sections

theorem eq_num_iff {v w : Option Json} (h : Option.Rel Same v w) (number : String) :
    v = some (.num number) ↔ w = some (.num number) := by
  rcases h with @⟨v, w, h⟩ | _
  · rw [Option.some.injEq, Option.some.injEq, ← same_num, ← same_num]
    exact ⟨h.symm.trans, h.trans⟩
  · rfl

/-- **Documents that differ in the order of fields only are read alike.** -/
theorem agree_parseReleaseManifest (platform : Platform) {v w : Json} (hv : v.keyed) (hw : w.keyed)
    (h : Same v w) : Agree Eq (parseReleaseManifest platform v) (parseReleaseManifest platform w) := by
  refine (agree_record_of (.some h) _).bind fun root root' ⟨⟨hroot, hroot'⟩, hsame⟩ => ?_
  rw [Option.some.inj hroot] at hv
  rw [Option.some.inj hroot'] at hw
  refine (agree_exactKeys hsame _ _).bind fun _ _ _ => ?_
  refine (agree_rejectSensitiveMaterial hv hw hsame _).bind fun _ _ _ => ?_
  by_cases hversion : root.lookup "schemaVersion" = some (.num "1")
  · have hversion' := (eq_num_iff (lookup_same hsame _) _).mp hversion
    rw [if_neg (not_not.mpr hversion), if_neg (not_not.mpr hversion')]
    -- the objects, then their fields' names, then what is in the fields
    refine (agree_record (lookup_same hsame _) _).bind fun cloudflare cloudflare' hcloudflare => ?_
    refine (agree_record (lookup_same hcloudflare _) _).bind fun api api' hapi => ?_
    refine (agree_record (lookup_same hcloudflare _) _).bind fun console console' hconsole => ?_
    refine (agree_record (lookup_same hcloudflare _) _).bind fun database database' hdatabase => ?_
    refine (agree_record (lookup_same hsame _) _).bind fun sealos sealos' hsealos => ?_
    refine (agree_record (lookup_same hsealos _) _).bind fun images images' himages => ?_
    refine (agree_record (lookup_same hsame _) _).bind fun backup backup' hbackup => ?_
    refine (agree_record (lookup_same hsame _) _).bind fun canary canary' hcanary => ?_
    refine (agree_record (lookup_same hsame _) _).bind fun exitGate exitGate' hexitGate => ?_
    refine (agree_exactKeys hcloudflare _ _).bind fun _ _ _ => ?_
    refine (agree_exactKeys hapi _ _).bind fun _ _ _ => ?_
    refine (agree_exactKeys hconsole _ _).bind fun _ _ _ => ?_
    refine (agree_exactKeys hdatabase _ _).bind fun _ _ _ => ?_
    refine (agree_exactKeys hbackup _ _).bind fun _ _ _ => ?_
    refine (agree_exactKeys hcanary _ _).bind fun _ _ _ => ?_
    refine (agree_exactKeys hexitGate _ _).bind fun _ _ _ => ?_
    refine (agree_exactKeys hsealos _ _).bind fun _ _ _ => ?_
    refine (agree_exactKeys himages _ _).bind fun _ _ _ => ?_
    rw [readBackup_same platform hbackup, text_same (lookup_same hcanary _), readApi_same hapi,
      readConsole_same hconsole]
    refine (Agree.of_eq rfl).bind fun backup _ hbackup => ?_
    refine (Agree.of_eq rfl).bind fun canary _ hcanary => ?_
    refine (Agree.of_eq rfl).bind fun api _ hapi => ?_
    refine (Agree.of_eq rfl).bind fun console _ hconsole => ?_
    refine (agree_readDatabase hdatabase).bind fun database _ hdatabase => ?_
    rw [readExitGate_same platform hexitGate]
    refine (Agree.of_eq rfl).bind fun exitGate _ hexitGate => ?_
    refine (agree_readSealos hsealos himages).bind fun sealos _ hsealos => ?_
    refine (agree_secretRefs (lookup_same hsame _)).bind fun secrets _ hsecrets => ?_
    subst hbackup hcanary hapi hconsole hdatabase hexitGate hsealos hsecrets
    exact .of_eq (by rw [commit, commit, tested_same (lookup_same hsame _)])
  · have hversion' := fun hv => hversion ((eq_num_iff (lookup_same hsame _) _).mpr hv)
    rw [if_pos hversion, if_pos hversion']
    exact .error _ _

/-! ## What is read is what is there -/

theorem record_ok {value : Option Json} {path : String} {fields : Fields}
    (h : record value path = .ok fields) : value = some (.obj fields) := by
  unfold record at h
  split at h
  · rw [Except.ok.inj h]
  · cases h

theorem text_ok {value : Option Json} {path s : String} (h : text value path = .ok s) :
    value = some (.str s) := by
  unfold text at h
  split at h
  · split_ifs at h
    rw [Except.ok.inj h]
  · cases h

theorem tested_ok {test : String → Bool} {message : String} {value : Option Json} {path s : String}
    (h : tested test message value path = .ok s) : value = some (.str s) := by
  obtain ⟨parsed, hparsed, h⟩ := bind_ok.mp h
  split_ifs at h
  rw [← Except.ok.inj h]
  exact text_ok hparsed

/-- An address that is read is one of a text that the platform takes for an HTTPS URL. -/
theorem httpsUrl_ok {platform : Platform} {value : Option Json} {path href : String}
    (h : httpsUrl platform value path = .ok href) :
    ∃ url, value = some (.str url) ∧ platform.newUrl url = some ("https:", href) := by
  obtain ⟨url, hurl, h⟩ := bind_ok.mp h
  refine ⟨url, text_ok hurl, ?_⟩
  split at h
  · cases h
  · next protocol href' hnew =>
    split_ifs at h with hprotocol
    rw [hnew, hprotocol, Except.ok.inj h]

theorem numberText_of_naturalOf {number : String} {n : Nat} (h : naturalOf number = some n) :
    numberText n = number := by
  unfold naturalOf at h
  split_ifs at h with htext
  rw [← Option.some.inj h]
  exact htext

/-- What is read as a positive integer is the number that is written for it. -/
theorem positiveInteger_ok {value : Option Json} {path : String} {n : Nat}
    (h : positiveInteger value path = .ok n) :
    value = some (.num (numberText n)) ∧ naturalOf (numberText n) = some n := by
  unfold positiveInteger at h
  split at h
  · split at h
    · next number m hm =>
      have htext := numberText_of_naturalOf hm
      cases h
      rw [htext]
      exact ⟨rfl, hm⟩
    · cases h
  · cases h

/-- An object with these fields and no others. -/
theorem same_of_fields {fields document : Fields} {path : String}
    (hkeys : exactKeys fields (document.map Prod.fst) path = .ok ())
    (hnames : (document.map Prod.fst).Nodup)
    (h : ∀ e ∈ document, ∃ w, fields.lookup e.1 = some w ∧ Same w e.2) :
    Same (.obj fields) (.obj document) :=
  (same_obj hnames).mpr ⟨fields, rfl, exactKeys_ok.mp hkeys, h⟩

theorem exists_str {value : Option Json} {s : String} (h : value = some (.str s)) :
    ∃ w, value = some w ∧ Same w (.str s) := ⟨_, h, .refl _⟩

/-- What is read as the versions of an image is what is written for them. -/
theorem imageVersions_ok {value : Option Json} {path : String} {image : ImageVersions}
    (h : imageVersions value path = .ok image) : ∃ w, value = some w ∧ Same w (imageJson image) := by
  obtain ⟨fields, hfields, h⟩ := bind_ok.mp h
  obtain ⟨_, hkeys, h⟩ := bind_ok.mp h
  obtain ⟨previous, hprevious, h⟩ := bind_ok.mp h
  obtain ⟨target, htarget, h⟩ := bind_ok.mp h
  split_ifs at h
  cases h
  refine ⟨_, record_ok hfields, same_of_fields hkeys (by simp) ?_⟩
  simp only [List.forall_mem_cons, List.not_mem_nil, false_imp_iff, implies_true, and_true]
  exact ⟨exists_str (text_ok hprevious), exists_str (text_ok htarget)⟩

theorem forall₂_of_mapM {α : Type} {read : Json × Nat → Except String α} {json : α → Json}
    (hread : ∀ v i a, read (v, i) = .ok a → Same v (json a)) {items : List Json} {as : List α}
    (h : items.zipIdx.mapM read = .ok as) : List.Forall₂ Same items (as.map json) := by
  have hall := (mapM_ok h).imp fun item a ha => hread item.1 item.2 a ha
  rw [List.forall₂_map_right_iff, ← List.zipIdx_map_fst 0 items, List.forall₂_map_left_iff]
  exact hall

/-- What is read as the migrations is what is written for them. -/
theorem migrationList_ok {value : Option Json} {migrations : List String}
    (h : migrationList value = .ok migrations) :
    ∃ w, value = some w ∧ Same w (.arr (migrations.map .str)) := by
  unfold migrationList at h
  split at h
  · next item items =>
    obtain ⟨parsed, hparsed, h⟩ := bind_ok.mp h
    split_ifs at h
    cases h
    refine ⟨_, rfl, same_arr.mpr ⟨_, rfl, forall₂_of_mapM (fun v i s hs => ?_) hparsed⟩⟩
    exact same_str.mpr (Option.some.inj (tested_ok hs))
  · cases h

/-- What is read as a reference to a secret is what is written for it. -/
theorem secretRef_ok {item : Json} {path : String} {secret : SecretRef}
    (h : secretRef item path = .ok secret) : Same item (secretJson secret) := by
  obtain ⟨fields, hfields, h⟩ := bind_ok.mp h
  obtain ⟨_, hkeys, h⟩ := bind_ok.mp h
  obtain ⟨name, hname, h⟩ := bind_ok.mp h
  obtain ⟨versionRef, hversion, h⟩ := bind_ok.mp h
  cases h
  rw [Option.some.inj (record_ok hfields)]
  refine same_of_fields hkeys (by simp) ?_
  simp only [List.forall_mem_cons, List.not_mem_nil, false_imp_iff, implies_true, and_true]
  exact ⟨exists_str (text_ok hname), exists_str (text_ok hversion)⟩

theorem secretRefs_ok {value : Option Json} {secrets : List SecretRef}
    (h : secretRefs value = .ok secrets) :
    ∃ w, value = some w ∧ Same w (.arr (secrets.map secretJson)) := by
  unfold secretRefs at h
  split at h
  · exact ⟨_, rfl, same_arr.mpr ⟨_, rfl, forall₂_of_mapM (fun _ _ _ hs => secretRef_ok hs) h⟩⟩
  · cases h

section Sections

variable {platform : Platform} {fields : Fields} {path : String}

theorem readBackup_ok {backup : Backup} (hkeys : exactKeys fields ["id", "verifiedAt"] path = .ok ())
    (h : readBackup platform fields = .ok backup) : Same (.obj fields) (backupJson backup) := by
  obtain ⟨id, hid, h⟩ := bind_ok.mp h
  obtain ⟨verifiedAt, hverified, h⟩ := bind_ok.mp h
  cases h
  refine same_of_fields hkeys (by simp) ?_
  simp only [List.forall_mem_cons, List.not_mem_nil, false_imp_iff, implies_true, and_true]
  exact ⟨exists_str (text_ok hid), exists_str (tested_ok hverified)⟩

theorem readApi_ok {api : CloudflareApi}
    (hkeys : exactKeys fields ["name", "previousVersion", "targetVersion"] path = .ok ())
    (h : readApi fields = .ok api) : Same (.obj fields) (apiJson api) := by
  obtain ⟨name, hname, h⟩ := bind_ok.mp h
  obtain ⟨previous, hprevious, h⟩ := bind_ok.mp h
  obtain ⟨target, htarget, h⟩ := bind_ok.mp h
  cases h
  refine same_of_fields hkeys (by simp) ?_
  simp only [List.forall_mem_cons, List.not_mem_nil, false_imp_iff, implies_true, and_true]
  exact ⟨exists_str (text_ok hname), exists_str (text_ok hprevious), exists_str (text_ok htarget)⟩

theorem readConsole_ok {console : CloudflareConsole}
    (hkeys : exactKeys fields ["artifactDir", "branch", "previousArtifactDir", "previousCommit",
      "projectName", "targetDeployment"] path = .ok ())
    (h : readConsole fields = .ok console) : Same (.obj fields) (consoleJson console) := by
  obtain ⟨artifactDir, hartifact, h⟩ := bind_ok.mp h
  obtain ⟨branch, hbranch, h⟩ := bind_ok.mp h
  obtain ⟨previousDir, hdir, h⟩ := bind_ok.mp h
  obtain ⟨previousCommit, hcommit, h⟩ := bind_ok.mp h
  obtain ⟨projectName, hproject, h⟩ := bind_ok.mp h
  obtain ⟨target, htarget, h⟩ := bind_ok.mp h
  cases h
  refine same_of_fields hkeys (by simp) ?_
  simp only [List.forall_mem_cons, List.not_mem_nil, false_imp_iff, implies_true, and_true]
  exact ⟨exists_str (tested_ok hartifact), exists_str (text_ok hbranch), exists_str (tested_ok hdir),
    exists_str (tested_ok hcommit), exists_str (text_ok hproject), exists_str (text_ok htarget)⟩

theorem readDatabase_ok {database : Database}
    (hkeys : exactKeys fields ["migrations", "name"] path = .ok ())
    (h : readDatabase fields = .ok database) : Same (.obj fields) (databaseJson database) := by
  obtain ⟨migrations, hmigrations, h⟩ := bind_ok.mp h
  obtain ⟨name, hname, h⟩ := bind_ok.mp h
  cases h
  refine same_of_fields hkeys (by simp) ?_
  simp only [List.forall_mem_cons, List.not_mem_nil, false_imp_iff, implies_true, and_true]
  exact ⟨migrationList_ok hmigrations, exists_str (text_ok hname)⟩

/-- What is read as the exit gate is what is written for it, up to the text of its address. -/
theorem readExitGate_ok {exitGate : ExitGate}
    (hkeys : exactKeys fields ["apiHealthUrl", "stabilitySeconds"] path = .ok ())
    (h : readExitGate platform fields = .ok exitGate) :
    naturalOf (numberText exitGate.stabilitySeconds) = some exitGate.stabilitySeconds ∧
      ∃ url, platform.newUrl url = some ("https:", exitGate.apiHealthUrl) ∧
        Same (.obj fields) (exitGateJson { exitGate with apiHealthUrl := url }) := by
  obtain ⟨href, hhref, h⟩ := bind_ok.mp h
  obtain ⟨seconds, hseconds, h⟩ := bind_ok.mp h
  cases h
  obtain ⟨url, hurl, hnew⟩ := httpsUrl_ok hhref
  obtain ⟨hnumber, hnatural⟩ := positiveInteger_ok hseconds
  refine ⟨hnatural, url, hnew, same_of_fields hkeys (by simp) ?_⟩
  simp only [List.forall_mem_cons, List.not_mem_nil, false_imp_iff, implies_true, and_true]
  exact ⟨exists_str hurl, _, hnumber, .refl _⟩

theorem readImages_ok {images : Images}
    (hkeys : exactKeys fields ["mihomo", "warp", "worker"] path = .ok ())
    (h : readImages fields = .ok images) : Same (.obj fields) (imagesJson images) := by
  obtain ⟨mihomo, hmihomo, h⟩ := bind_ok.mp h
  obtain ⟨warp, hwarp, h⟩ := bind_ok.mp h
  obtain ⟨worker, hworker, h⟩ := bind_ok.mp h
  cases h
  refine same_of_fields hkeys (by simp) ?_
  simp only [List.forall_mem_cons, List.not_mem_nil, false_imp_iff, implies_true, and_true]
  exact ⟨imageVersions_ok hmihomo, imageVersions_ok hwarp, imageVersions_ok hworker⟩

theorem readSealos_ok {sealos : Sealos} {images : Fields} {imagesPath : String}
    (hkeys : exactKeys fields ["context", "images", "manifestPath", "namespace", "previousRevision",
      "revision", "rollbackManifestPath", "workloadName"] path = .ok ())
    (himages : fields.lookup "images" = some (.obj images))
    (himagesKeys : exactKeys images ["mihomo", "warp", "worker"] imagesPath = .ok ())
    (h : readSealos fields images = .ok sealos) : Same (.obj fields) (sealosJson sealos) := by
  obtain ⟨context, hcontext, h⟩ := bind_ok.mp h
  obtain ⟨read, hread, h⟩ := bind_ok.mp h
  obtain ⟨manifestPath, hmanifest, h⟩ := bind_ok.mp h
  obtain ⟨namespaceName, hnamespace, h⟩ := bind_ok.mp h
  obtain ⟨previous, hprevious, h⟩ := bind_ok.mp h
  obtain ⟨revision, hrevision, h⟩ := bind_ok.mp h
  obtain ⟨rollback, hrollback, h⟩ := bind_ok.mp h
  obtain ⟨workload, hworkload, h⟩ := bind_ok.mp h
  cases h
  refine same_of_fields hkeys (by simp) ?_
  simp only [List.forall_mem_cons, List.not_mem_nil, false_imp_iff, implies_true, and_true]
  exact ⟨exists_str (tested_ok hcontext), ⟨_, himages, readImages_ok himagesKeys hread⟩,
    exists_str (tested_ok hmanifest), exists_str (text_ok hnamespace), exists_str (text_ok hprevious),
    exists_str (text_ok hrevision), exists_str (tested_ok hrollback), exists_str (text_ok hworkload)⟩

end Sections

/-- The document of a manifest, with its health URL as it was written. -/
def documentOf (manifest : ReleaseManifest) (url : String) : Json :=
  manifestJson { manifest with exitGate := { manifest.exitGate with apiHealthUrl := url } }

/--
**An accepted document is that of the manifest.** It has each of its fields and no others; only the
health URL may have been written in another way.
-/
theorem parse_ok {platform : Platform} {v : Json} {manifest : ReleaseManifest}
    (h : parseReleaseManifest platform v = .ok manifest) :
    naturalOf (numberText manifest.exitGate.stabilitySeconds) =
        some manifest.exitGate.stabilitySeconds ∧
      rejectSensitiveMaterial v "manifest" = .ok () ∧
      ∃ url, platform.newUrl url = some ("https:", manifest.exitGate.apiHealthUrl) ∧
        Same v (documentOf manifest url) := by
  -- the checks in the order the parser makes them
  obtain ⟨root, hroot, h⟩ := bind_ok.mp h
  obtain ⟨_, hrootKeys, h⟩ := bind_ok.mp h
  obtain ⟨_, hsensitive, h⟩ := bind_ok.mp h
  split_ifs at h with hversion
  obtain ⟨cloudflare, hcloudflare, h⟩ := bind_ok.mp h
  obtain ⟨api, hapi, h⟩ := bind_ok.mp h
  obtain ⟨console, hconsole, h⟩ := bind_ok.mp h
  obtain ⟨database, hdatabase, h⟩ := bind_ok.mp h
  obtain ⟨sealos, hsealos, h⟩ := bind_ok.mp h
  obtain ⟨images, himages, h⟩ := bind_ok.mp h
  obtain ⟨backup, hbackup, h⟩ := bind_ok.mp h
  obtain ⟨canary, hcanary, h⟩ := bind_ok.mp h
  obtain ⟨exitGate, hexitGate, h⟩ := bind_ok.mp h
  obtain ⟨_, hcloudflareKeys, h⟩ := bind_ok.mp h
  obtain ⟨_, hapiKeys, h⟩ := bind_ok.mp h
  obtain ⟨_, hconsoleKeys, h⟩ := bind_ok.mp h
  obtain ⟨_, hdatabaseKeys, h⟩ := bind_ok.mp h
  obtain ⟨_, hbackupKeys, h⟩ := bind_ok.mp h
  obtain ⟨_, hcanaryKeys, h⟩ := bind_ok.mp h
  obtain ⟨_, hexitGateKeys, h⟩ := bind_ok.mp h
  obtain ⟨_, hsealosKeys, h⟩ := bind_ok.mp h
  obtain ⟨_, himagesKeys, h⟩ := bind_ok.mp h
  obtain ⟨readBackup, hreadBackup, h⟩ := bind_ok.mp h
  obtain ⟨fixtureSet, hfixtureSet, h⟩ := bind_ok.mp h
  obtain ⟨readApi, hreadApi, h⟩ := bind_ok.mp h
  obtain ⟨readConsole, hreadConsole, h⟩ := bind_ok.mp h
  obtain ⟨readDatabase, hreadDatabase, h⟩ := bind_ok.mp h
  obtain ⟨readExitGate, hreadExitGate, h⟩ := bind_ok.mp h
  obtain ⟨readSealos, hreadSealos, h⟩ := bind_ok.mp h
  obtain ⟨secrets, hsecrets, h⟩ := bind_ok.mp h
  obtain ⟨sourceCommit, hcommit, h⟩ := bind_ok.mp h
  cases h
  rw [Option.some.inj (record_ok hroot)]
  obtain ⟨hnatural, url, hnew, hexitGateSame⟩ := readExitGate_ok hexitGateKeys hreadExitGate
  -- no key beyond those read, so the fields read are the document
  refine ⟨hnatural, hsensitive, url, hnew, same_of_fields hrootKeys (by simp) ?_⟩
  have hcanarySame : Same (.obj canary) (.obj [("fixtureSet", .str fixtureSet)]) := by
    refine same_of_fields hcanaryKeys (by simp) ?_
    simp only [List.forall_mem_cons, List.not_mem_nil, false_imp_iff, implies_true, and_true]
    exact exists_str (text_ok hfixtureSet)
  have hcloudflareSame :
      Same (.obj cloudflare) (cloudflareJson ⟨readApi, readConsole, readDatabase⟩) := by
    refine same_of_fields hcloudflareKeys (by simp) ?_
    simp only [List.forall_mem_cons, List.not_mem_nil, false_imp_iff, implies_true, and_true]
    exact ⟨⟨_, record_ok hapi, readApi_ok hapiKeys hreadApi⟩,
      ⟨_, record_ok hconsole, readConsole_ok hconsoleKeys hreadConsole⟩,
      _, record_ok hdatabase, readDatabase_ok hdatabaseKeys hreadDatabase⟩
  simp only [List.forall_mem_cons, List.not_mem_nil, false_imp_iff, implies_true, and_true]
  exact ⟨⟨_, record_ok hbackup, readBackup_ok hbackupKeys hreadBackup⟩,
    ⟨_, record_ok hcanary, hcanarySame⟩, ⟨_, record_ok hcloudflare, hcloudflareSame⟩,
    ⟨_, record_ok hexitGate, hexitGateSame⟩, ⟨_, not_not.mp hversion, .refl _⟩,
    ⟨_, record_ok hsealos,
      readSealos_ok hsealosKeys (record_ok himages) himagesKeys hreadSealos⟩,
    secretRefs_ok hsecrets, exists_str (tested_ok hcommit)⟩

/-! ## What is there can be told -/

section Fields

variable {fields fields' : Fields}

theorem same_get (h : Same (.obj fields) (.obj fields')) (name : String) {v w : Json}
    (hv : fields.lookup name = some v) (hw : fields'.lookup name = some w) : Same v w := by
  have hsame := lookup_same h name
  rw [hv, hw] at hsame
  cases hsame
  assumption

theorem str_get (h : Same (.obj fields) (.obj fields')) (name : String) {s t : String}
    (hs : fields.lookup name = some (.str s)) (ht : fields'.lookup name = some (.str t)) : s = t :=
  Json.str.inj (same_str.mp (same_get h name hs ht))

end Fields

theorem map_json_inj {α : Type} {json : α → Json} (hjson : ∀ a b, Same (json a) (json b) → a = b)
    {as bs : List α} (h : Same (.arr (as.map json)) (.arr (bs.map json))) : as = bs := by
  obtain ⟨items, hitems, hsame⟩ := same_arr.mp h
  rw [← Json.arr.inj hitems, List.forall₂_map_left_iff, List.forall₂_map_right_iff] at hsame
  rw [← List.forall₂_eq_eq_eq]
  exact hsame.imp hjson

theorem strings_inj {as bs : List String} (h : Same (.arr (as.map .str)) (.arr (bs.map .str))) :
    as = bs :=
  map_json_inj (fun _ _ hsame => Json.str.inj (same_str.mp hsame)) h

theorem backupJson_inj {b b' : Backup} (h : Same (backupJson b) (backupJson b')) : b = b' := by
  obtain ⟨id, verifiedAt⟩ := b
  obtain ⟨id', verifiedAt'⟩ := b'
  rw [Backup.mk.injEq]
  exact ⟨str_get h "id" rfl rfl, str_get h "verifiedAt" rfl rfl⟩

theorem apiJson_inj {a a' : CloudflareApi} (h : Same (apiJson a) (apiJson a')) : a = a' := by
  obtain ⟨name, previous, target⟩ := a
  obtain ⟨name', previous', target'⟩ := a'
  rw [CloudflareApi.mk.injEq]
  exact ⟨str_get h "name" rfl rfl, str_get h "previousVersion" rfl rfl,
    str_get h "targetVersion" rfl rfl⟩

theorem consoleJson_inj {c c' : CloudflareConsole} (h : Same (consoleJson c) (consoleJson c')) :
    c = c' := by
  obtain ⟨artifactDir, branch, previousDir, previousCommit, projectName, target⟩ := c
  obtain ⟨artifactDir', branch', previousDir', previousCommit', projectName', target'⟩ := c'
  rw [CloudflareConsole.mk.injEq]
  exact ⟨str_get h "artifactDir" rfl rfl, str_get h "branch" rfl rfl,
    str_get h "previousArtifactDir" rfl rfl, str_get h "previousCommit" rfl rfl,
    str_get h "projectName" rfl rfl, str_get h "targetDeployment" rfl rfl⟩

theorem databaseJson_inj {d d' : Database} (h : Same (databaseJson d) (databaseJson d')) : d = d' := by
  obtain ⟨migrations, name⟩ := d
  obtain ⟨migrations', name'⟩ := d'
  rw [Database.mk.injEq]
  exact ⟨strings_inj (same_get h "migrations" rfl rfl), str_get h "name" rfl rfl⟩

theorem cloudflareJson_inj {c c' : Cloudflare} (h : Same (cloudflareJson c) (cloudflareJson c')) :
    c = c' := by
  obtain ⟨api, console, database⟩ := c
  obtain ⟨api', console', database'⟩ := c'
  rw [Cloudflare.mk.injEq]
  exact ⟨apiJson_inj (same_get h "api" rfl rfl), consoleJson_inj (same_get h "console" rfl rfl),
    databaseJson_inj (same_get h "database" rfl rfl)⟩

/-- The number of an accepted manifest is told by its text. -/
def Written (manifest : ReleaseManifest) : Prop :=
  naturalOf (numberText manifest.exitGate.stabilitySeconds) = some manifest.exitGate.stabilitySeconds

/--
Exit gates whose seconds are written as they are read are equal where they are written the same.
-/
theorem exitGateJson_inj {e e' : ExitGate}
    (hwritten : naturalOf (numberText e.stabilitySeconds) = some e.stabilitySeconds)
    (hwritten' : naturalOf (numberText e'.stabilitySeconds) = some e'.stabilitySeconds)
    (h : Same (exitGateJson e) (exitGateJson e')) : e = e' := by
  obtain ⟨url, seconds⟩ := e
  obtain ⟨url', seconds'⟩ := e'
  rw [ExitGate.mk.injEq]
  refine ⟨str_get h "apiHealthUrl" rfl rfl, ?_⟩
  have htext : numberText seconds = numberText seconds' :=
    Json.num.inj (same_num.mp (same_get h "stabilitySeconds" rfl rfl))
  dsimp only at hwritten hwritten'
  rw [htext, hwritten'] at hwritten
  exact (Option.some.inj hwritten).symm

theorem imageJson_inj {i i' : ImageVersions} (h : Same (imageJson i) (imageJson i')) : i = i' := by
  obtain ⟨previous, target⟩ := i
  obtain ⟨previous', target'⟩ := i'
  rw [ImageVersions.mk.injEq]
  exact ⟨str_get h "previous" rfl rfl, str_get h "target" rfl rfl⟩

theorem imagesJson_inj {i i' : Images} (h : Same (imagesJson i) (imagesJson i')) : i = i' := by
  obtain ⟨mihomo, warp, worker⟩ := i
  obtain ⟨mihomo', warp', worker'⟩ := i'
  rw [Images.mk.injEq]
  exact ⟨imageJson_inj (same_get h "mihomo" rfl rfl), imageJson_inj (same_get h "warp" rfl rfl),
    imageJson_inj (same_get h "worker" rfl rfl)⟩

theorem sealosJson_inj {s s' : Sealos} (h : Same (sealosJson s) (sealosJson s')) : s = s' := by
  obtain ⟨context, path, name, previous, revision, rollback, workload, images⟩ := s
  obtain ⟨context', path', name', previous', revision', rollback', workload', images'⟩ := s'
  rw [Sealos.mk.injEq]
  exact ⟨str_get h "context" rfl rfl, str_get h "manifestPath" rfl rfl, str_get h "namespace" rfl rfl,
    str_get h "previousRevision" rfl rfl, str_get h "revision" rfl rfl,
    str_get h "rollbackManifestPath" rfl rfl, str_get h "workloadName" rfl rfl,
    imagesJson_inj (same_get h "images" rfl rfl)⟩

theorem secretJson_inj {s s' : SecretRef} (h : Same (secretJson s) (secretJson s')) : s = s' := by
  obtain ⟨name, version⟩ := s
  obtain ⟨name', version'⟩ := s'
  rw [SecretRef.mk.injEq]
  exact ⟨str_get h "name" rfl rfl, str_get h "versionRef" rfl rfl⟩

/-- Manifests that were read are equal where they are written the same. -/
theorem manifestJson_inj {m m' : ReleaseManifest} (hm : Written m) (hm' : Written m')
    (h : Same (manifestJson m) (manifestJson m')) : m = m' := by
  obtain ⟨backup, fixtureSet, cloudflare, exitGate, sealos, secrets, commit⟩ := m
  obtain ⟨backup', fixtureSet', cloudflare', exitGate', sealos', secrets', commit'⟩ := m'
  rw [ReleaseManifest.mk.injEq]
  exact ⟨backupJson_inj (same_get h "backup" rfl rfl),
    str_get (same_get h "canary" rfl rfl) "fixtureSet" rfl rfl,
    cloudflareJson_inj (same_get h "cloudflare" rfl rfl),
    exitGateJson_inj hm hm' (same_get h "exitGate" rfl rfl),
    sealosJson_inj (same_get h "sealos" rfl rfl),
    map_json_inj (fun _ _ => secretJson_inj) (same_get h "secrets" rfl rfl),
    str_get h "sourceCommit" rfl rfl⟩

/-- **The document that is hashed tells the action and the manifest.** -/
theorem planJson_inj {action action' : ReleaseAction} {m m' : ReleaseManifest}
    {steps steps' : List ReleaseStep} (hm : Written m) (hm' : Written m')
    (h : Same (planJson action m steps) (planJson action' m' steps')) : action = action' ∧ m = m' := by
  refine ⟨?_, manifestJson_inj hm hm' (same_get h "manifest" rfl rfl)⟩
  have haction : actionText action = actionText action' := str_get h "action" rfl rfl
  cases action <;> cases action' <;> simp [actionText] at haction ⊢

/-! ## The document that is hashed -/

/-- The text of a number is one that JSON has for numbers. -/
theorem numberText_numeric (n : Nat) : (Json.num (numberText n)).numeric = true := by
  have hdigits : ∀ {m : Nat} {c : Char}, c ∈ (toString m).toList → isNumberChar c = true := by
    intro m c hc
    simp [isNumberChar, isDigit_of_mem_toString hc]
  rw [Json.numeric, Bool.and_eq_true, decide_eq_true_eq, List.all_eq_true, numberText]
  by_cases hsmall : n < 10 ^ 21
  · rw [if_pos hsmall]
    exact ⟨Nat.repr_ne_empty, fun c hc => hdigits hc⟩
  · rw [if_neg hsmall]
    refine ⟨fun h => by simp [← String.toList_inj] at h, fun c hc => ?_⟩
    simp only [String.toList_append, String.toList_ofList, List.mem_append] at hc
    rcases hc with ((hc | hc) | hc) | hc
    · exact hdigits (List.mem_of_mem_take hc)
    · split_ifs at hc with hfraction
      · cases hc
      · rcases List.mem_cons.mp hc with rfl | hc
        · rfl
        · rw [List.mem_reverse] at hc
          have hmem := List.mem_reverse.mp ((List.dropWhile_sublist _).mem hc)
          exact hdigits (List.mem_of_mem_tail hmem)
    · have hexponent : c = 'e' ∨ c = '+' := by simpa using hc
      rcases hexponent with rfl | rfl <;> rfl
    · exact hdigits hc

section Maps

variable {α : Type} {json : α → Json}

theorem keyedItems_map (h : ∀ a, (json a).keyed) (as : List α) : keyedItems (as.map json) :=
  keyedItems_iff.mpr fun item hitem => by
    obtain ⟨a, -, rfl⟩ := List.mem_map.mp hitem
    exact h a

theorem numericItems_map (h : ∀ a, (json a).numeric = true) (as : List α) :
    numericItems (as.map json) = true :=
  numericItems_iff.mpr fun item hitem => by
    obtain ⟨a, -, rfl⟩ := List.mem_map.mp hitem
    exact h a

end Maps

theorem keyedItems_strings (texts : List String) : keyedItems (texts.map .str) :=
  keyedItems_map (fun s => show (Json.str s).keyed from trivial) texts

theorem numericItems_strings (texts : List String) : numericItems (texts.map .str) = true :=
  numericItems_map (fun _ => rfl) texts

theorem keyed_manifestJson (m : ReleaseManifest) : (manifestJson m).keyed := by
  have hsecrets : keyedItems (m.secrets.map secretJson) :=
    keyedItems_map (fun s => by simp [secretJson, keyed, keyedFields]) m.secrets
  simp [manifestJson, backupJson, cloudflareJson, apiJson, consoleJson, databaseJson, exitGateJson,
    sealosJson, imagesJson, imageJson, keyed, keyedFields, keyedItems_strings, hsecrets]

/-- Every number in what is written for a manifest is one of JSON. -/
theorem numeric_manifestJson (m : ReleaseManifest) : (manifestJson m).numeric = true := by
  have hsecrets : numericItems (m.secrets.map secretJson) = true :=
    numericItems_map (fun s => rfl) m.secrets
  have hseconds := numberText_numeric m.exitGate.stabilitySeconds
  have hversion : (Json.num "1").numeric = true := by decide
  -- the numbers are left folded
  have hstr : ∀ s, (Json.str s).numeric = true := fun _ => rfl
  have harr : ∀ items, (Json.arr items).numeric = numericItems items := fun _ => rfl
  have hobj : ∀ fields, (Json.obj fields).numeric = numericFields fields := fun _ => rfl
  simp [manifestJson, backupJson, cloudflareJson, apiJson, consoleJson, databaseJson, exitGateJson,
    sealosJson, imagesJson, imageJson, numericFields, hstr, harr, hobj, numericItems_strings,
    hsecrets, hseconds, hversion]

theorem keyed_commandJson (c : ReleaseCommand) : (commandJson c).keyed := by
  simp [commandJson, keyed, keyedFields, keyedItems_strings]

theorem keyed_stepJson (s : ReleaseStep) : (stepJson s).keyed := by
  simp [stepJson, keyed, keyedFields, keyedItems_map keyed_commandJson]

theorem numeric_commandJson (c : ReleaseCommand) : (commandJson c).numeric = true := by
  simp [commandJson, numeric, numericFields, numericItems_strings]

theorem numeric_stepJson (s : ReleaseStep) : (stepJson s).numeric = true := by
  simp [stepJson, numeric, numericFields, numericItems_map numeric_commandJson]

theorem keyed_planJson (action : ReleaseAction) (m : ReleaseManifest) (steps : List ReleaseStep) :
    (planJson action m steps).keyed := by
  simp [planJson, keyed, keyedFields, keyed_manifestJson, keyedItems_map keyed_stepJson]

theorem numeric_planJson (action : ReleaseAction) (m : ReleaseManifest) (steps : List ReleaseStep) :
    (planJson action m steps).numeric = true := by
  simp [planJson, numeric, numericFields, numeric_manifestJson, numericItems_map numeric_stepJson]

/-! ## The hash -/

section Hash

variable (platform : Platform)

/-- Two plans have one hash exactly where their actions and their manifests are equal. -/
theorem planHash_eq_iff (hsha : Function.Injective platform.sha256) {m m' : ReleaseManifest}
    (hm : Written m) (hm' : Written m') (action action' : ReleaseAction) :
    (releasePlan platform action m).planHash = (releasePlan platform action' m').planHash ↔
      action = action' ∧ m = m' := by
  constructor
  · intro h
    have hsame := same_of_canonical platform.localeCompare (keyed_planJson _ _ _)
      (keyed_planJson _ _ _) (numeric_planJson _ _ _) (numeric_planJson _ _ _) (hsha h)
    exact planJson_inj hm hm' hsame
  · rintro ⟨rfl, rfl⟩
    rfl

/--
**What a plan hash was given for is what it stands for.** Two accepted documents and two actions have
one plan hash only if the actions and the manifests are the same, and then so are the steps. An
accepted document may be written with its fields in any order. It has the fields of its manifest at
every depth, no others, and no name of a credential among them.
-/
theorem planHash_binds (hsha : Function.Injective platform.sha256) {v w : Json} (hv : v.keyed)
    (hw : w.keyed) {m m' : ReleaseManifest} (hm : parseReleaseManifest platform v = .ok m)
    (hm' : parseReleaseManifest platform w = .ok m') (action action' : ReleaseAction) :
    ((releasePlan platform action m).planHash = (releasePlan platform action' m').planHash ↔
        action = action' ∧ m = m') ∧
      ((releasePlan platform action m).planHash = (releasePlan platform action' m').planHash →
        (releasePlan platform action m).steps = (releasePlan platform action' m').steps) ∧
      (Same v w → m = m') ∧
      (∀ v', v'.keyed → Same v' v → parseReleaseManifest platform v' = .ok m) ∧
      (∃ url, platform.newUrl url = some ("https:", m.exitGate.apiHealthUrl) ∧
        Same v (documentOf m url)) ∧
      ∀ name, HasName v name → isSensitiveName name = false := by
  obtain ⟨hwritten, hsensitive, url, hnew, hsame⟩ := parse_ok hm
  have halike : ∀ v', v'.keyed → Same v' v → parseReleaseManifest platform v' = .ok m := by
    intro v' hv' h
    have hagree := agree_parseReleaseManifest platform hv' hv h
    rw [hm] at hagree
    exact hagree.eq_ok
  have hiff := planHash_eq_iff platform hsha hwritten (parse_ok hm').1 action action'
  refine ⟨hiff, fun h => ?_, fun h => ?_, halike, ⟨url, hnew, hsame⟩,
    (rejectSensitiveMaterial_ok _ hv).mp hsensitive⟩
  · obtain ⟨rfl, rfl⟩ := hiff.mp h
    rfl
  · exact Except.ok.inj ((halike w hw h.symm).symm.trans hm')

end Hash

namespace Sample

def healthUrl : String := "https://inbox-api.example.com/healthz"

/-- The hex digest of an image, or of a commit. -/
def hexOf (c : Char) (length : Nat) : String := String.ofList (List.replicate length c)

def digest (suffix : String) : String :=
  "ghcr.nju.edu.cn/v-yutianran/" ++ suffix ++ "@sha256:" ++ hexOf 'a' 64

def manifest : ReleaseManifest where
  backup := ⟨"d1-bookmark-20300101", "2030-01-01T00:00:00.000Z"⟩
  canaryFixtureSet := "article-fixed-v1"
  cloudflare :=
    { api := ⟨"inbox-server-api", "11111111-1111-4111-8111-111111111111",
        "22222222-2222-4222-8222-222222222222"⟩
      console := ⟨"apps/console/dist", "main", "artifacts/console/previous", hexOf '1' 40,
        "inbox-server-console", "console-deployment-v2"⟩
      database := ⟨["apps/api/migrations/0005_operations_readiness.sql"], "inbox-server"⟩ }
  exitGate := ⟨healthUrl, 600⟩
  sealos := ⟨"sealos-bja-ns-tbs948af", "deploy/sealos/worker-staging.yaml", "ns-tbs948af",
    "revision-1", "revision-2", "deploy/sealos/worker-rollback.yaml", "inbox-server-worker-staging",
    ⟨digest "mihomo-old", digest "mihomo-new"⟩, ⟨digest "warp-old", digest "warp-new"⟩,
    ⟨digest "worker-old", digest "worker-new"⟩⟩
  secrets := [⟨"inbox-worker-staging", "resourceVersion:18"⟩]
  sourceCommit := hexOf '2' 40

/-- The platform, without SHA-256. -/
def withoutHash : Platform where
  isDate text := text = "2030-01-01T00:00:00.000Z"
  newUrl url := if url = healthUrl then some ("https:", url) else none
  localeCompare left right := if left < right then -1 else if left = right then 0 else 1
  sha256 := id

/-- The text that is hashed for an action. -/
def canonicalText (action : ReleaseAction) : String :=
  canonicalJson withoutHash (planJson action manifest (releasePlan withoutHash action manifest).steps)

def applyDigest : String := "603f982ccc1d32a9c16c3dd31a145a38d16cb5732d4ea99f838600034a994443"

def rollbackDigest : String := "ddb56f3a8244cf22e0b0f9be50868a88cc62eacfd6704f32e75b36c5fdbe8b47"

def platform : Platform :=
  { withoutHash with
    sha256 := fun text => Equiv.swap (canonicalText .apply) applyDigest
      (Equiv.swap (canonicalText .rollback) rollbackDigest text) }

theorem sha256_injective : Function.Injective platform.sha256 :=
  (Equiv.swap (canonicalText .apply) applyDigest).injective.comp
    (Equiv.swap (canonicalText .rollback) rollbackDigest).injective

/-- The fields of the document. -/
def root : Fields := Json.record (manifestJson manifest)

/-- The fields in the other order give the same manifest, and the other action another hash. -/
theorem planHash_binds_reversed :
    parseReleaseManifest platform (.obj root.reverse) = .ok manifest ∧
      (releasePlan platform .apply manifest).planHash ≠
        (releasePlan platform .rollback manifest).planHash := by
  have hparse : parseReleaseManifest platform (.obj root) = .ok manifest := by decide +kernel
  have hroot : (Json.obj root).keyed := keyed_manifestJson manifest
  have hnames : (root.reverse.map Prod.fst).Nodup := by
    rw [List.map_reverse]
    exact List.nodup_reverse.mpr hroot.1
  have hreversed : (Json.obj root.reverse).keyed :=
    ⟨hnames, keyedFields_iff.mpr fun e he => keyedFields_iff.mp hroot.2 e (List.mem_reverse.mp he)⟩
  obtain ⟨hhash, -, -, halike, -⟩ :=
    planHash_binds platform sha256_injective hroot hroot hparse hparse .apply .rollback
  exact ⟨halike _ hreversed (same_of_perm (List.reverse_perm root) hnames),
    fun h => by cases (hhash.mp h).1⟩

end Sample

end InboxServer.ReleaseDocument
