import InboxServer.Domain.JsonText

/-!
# JSON values as trees

Two values are the same up to the order of the fields of their objects when they have the same at
every place. Sorting the fields of all objects keeps what is at every place, if no object has two
fields of one name.

* `Json.same_iff` — values are the same if they are alike and so are their parts
* `Json.same_sortValue` — a value and the one with sorted fields are the same
* `Json.same_of_canonical` — values are the same if their texts with sorted fields are
-/

namespace InboxServer.Json

/-! ## Places -/

/-- What a value is, without its parts. -/
inductive Node where
  | null
  | bool (b : Bool)
  | num (text : String)
  | str (s : String)
  | arr (length : Nat)
  | obj
  deriving DecidableEq

def node : Json → Node
  | null => .null
  | bool b => .bool b
  | num text => .num text
  | str s => .str s
  | arr items => .arr items.length
  | obj _ => .obj

/-- The place of a part in a value. -/
inductive Place where
  | key (name : String)
  | index (i : Nat)
  deriving DecidableEq

def child : Json → Place → Option Json
  | obj fields, .key name => fields.lookup name
  | arr items, .index i => items[i]?
  | _, _ => none

/-- What is at the end of a path. -/
def follow : List Place → Json → Option Json
  | [], v => some v
  | place :: path, v => (v.child place).bind (follow path)

/-! ## The same values -/

/-- There is the same at every place: the values differ in the order of fields only. -/
def Same (v w : Json) : Prop := ∀ path, (follow path v).map node = (follow path w).map node

theorem Same.refl (v : Json) : Same v v := fun _ => rfl

theorem Same.symm {v w : Json} (h : Same v w) : Same w v := fun path => (h path).symm

theorem Same.trans {u v w : Json} (h : Same u v) (h' : Same v w) : Same u w :=
  fun path => (h path).trans (h' path)

/-- Values are the same where their roots and all their children are. -/
theorem same_iff {v w : Json} :
    Same v w ↔ v.node = w.node ∧ ∀ place, Option.Rel Same (v.child place) (w.child place) := by
  constructor
  · intro h
    refine ⟨Option.some.inj (h []), fun place => ?_⟩
    have hplace : ∀ path, ((v.child place).bind (follow path)).map node =
        ((w.child place).bind (follow path)).map node := fun path => h (place :: path)
    rcases hv : v.child place with _ | v' <;> rcases hw : w.child place with _ | w'
    · exact .none
    · simpa [hv, hw, follow] using hplace []
    · simpa [hv, hw, follow] using hplace []
    · exact .some fun path => by simpa [hv, hw] using hplace path
  · rintro ⟨hnode, hchild⟩ (_ | ⟨place, path⟩)
    · exact congrArg some hnode
    · have hplace := hchild place
      simp only [follow]
      generalize v.child place = left, w.child place = right at hplace
      rcases hplace with hsame | _
      · exact hsame path
      · rfl

theorem same_str {v : Json} {s : String} : Same v (.str s) ↔ v = .str s := by
  constructor
  · intro h
    have hnode := (same_iff.mp h).1
    cases v <;> simp_all [node]
  · rintro rfl
    exact .refl _

theorem same_num {v : Json} {text : String} : Same v (.num text) ↔ v = .num text := by
  constructor
  · intro h
    have hnode := (same_iff.mp h).1
    cases v <;> simp_all [node]
  · rintro rfl
    exact .refl _

/-- A list is the same as one whose items are. -/
theorem same_arr {v : Json} {items : List Json} :
    Same v (.arr items) ↔ ∃ items', v = .arr items' ∧ List.Forall₂ Same items' items := by
  constructor
  · intro h
    obtain ⟨hnode, hchild⟩ := same_iff.mp h
    cases v with
    | arr items' =>
      refine ⟨items', rfl, List.forall₂_iff_get.mpr ⟨by simpa [node] using hnode, ?_⟩⟩
      intro i hi hi'
      have := hchild (.index i)
      simp only [child, List.getElem?_eq_getElem hi, List.getElem?_eq_getElem hi'] at this
      cases this
      assumption
    | null | bool | num | str | obj => simp [node] at hnode
  · rintro ⟨items', rfl, hitems⟩
    obtain ⟨hlength, hget⟩ := List.forall₂_iff_get.mp hitems
    refine same_iff.mpr ⟨by simp [node, hlength], ?_⟩
    rintro (name | i)
    · exact .none
    · by_cases hi : i < items'.length
      · have hi' : i < items.length := hlength ▸ hi
        simp only [child, List.getElem?_eq_getElem hi, List.getElem?_eq_getElem hi']
        exact .some (hget i hi hi')
      · have hi' : ¬ i < items.length := hlength ▸ hi
        simp only [child, List.getElem?_eq_none (not_lt.mp hi), List.getElem?_eq_none (not_lt.mp hi')]
        exact .none

/-- The names that are looked up with success are those of the fields. -/
theorem isSome_lookup {α : Type} {fields : List (String × α)} {name : String} :
    (fields.lookup name).isSome = true ↔ name ∈ fields.map Prod.fst := by
  rw [List.lookup_isSome_iff]
  simp only [beq_iff_eq, List.mem_map]
  exact exists_congr fun e => and_congr_right fun _ => eq_comm

/-- A field of an object whose names are distinct is found by its name. -/
theorem lookup_eq_some_of_mem {α : Type} {fields : List (String × α)} {e : String × α}
    (h : (fields.map Prod.fst).Nodup) (he : e ∈ fields) : fields.lookup e.1 = some e.2 := by
  induction fields with
  | nil => cases he
  | cons e' fields ih =>
    obtain ⟨hnot, hnodup⟩ := List.nodup_cons.mp h
    rw [List.lookup_cons]
    rcases List.mem_cons.mp he with rfl | he
    · simp
    · have hne : (e.1 == e'.1) = false :=
        beq_eq_false_iff_ne.mpr fun heq => hnot (heq ▸ List.mem_map_of_mem he)
      rw [hne]
      exact ih hnodup he

/-- An object with the fields of another: each of them, and no other. -/
theorem same_obj {v : Json} {fields : Fields} (hnames : (fields.map Prod.fst).Nodup) :
    Same v (.obj fields) ↔ ∃ fields', v = .obj fields' ∧
      (∀ name ∈ fields'.map Prod.fst, name ∈ fields.map Prod.fst) ∧
      ∀ e ∈ fields, ∃ w, fields'.lookup e.1 = some w ∧ Same w e.2 := by
  constructor
  · intro h
    obtain ⟨hnode, hchild⟩ := same_iff.mp h
    cases v with
    | obj fields' =>
      refine ⟨fields', rfl, fun name hname => ?_, fun e he => ?_⟩
      · have hplace := hchild (.key name)
        rw [← isSome_lookup] at hname ⊢
        simp only [child] at hplace
        generalize fields'.lookup name = left, fields.lookup name = right at hplace hname
        rcases hplace with _ | _
        · rfl
        · exact hname
      · have := hchild (.key e.1)
        simp only [child, lookup_eq_some_of_mem hnames he] at this
        rcases hleft : fields'.lookup e.1 with _ | w
        · rw [hleft] at this
          cases this
        · rw [hleft] at this
          cases this
          exact ⟨w, rfl, by assumption⟩
    | null | bool | num | str | arr => simp [node] at hnode
  · rintro ⟨fields', rfl, hsub, hfields⟩
    refine same_iff.mpr ⟨rfl, ?_⟩
    rintro (name | i)
    · by_cases hname : name ∈ fields.map Prod.fst
      · obtain ⟨e, he, rfl⟩ := List.mem_map.mp hname
        obtain ⟨w, hw, hsame⟩ := hfields e he
        simp only [child, hw, lookup_eq_some_of_mem hnames he]
        exact .some hsame
      · have hleft : fields'.lookup name = none := by
          rw [← Option.not_isSome_iff_eq_none, isSome_lookup]
          exact fun hmem => hname (hsub name hmem)
        have hright : fields.lookup name = none := by
          rw [← Option.not_isSome_iff_eq_none, isSome_lookup]
          exact hname
        simp only [child, hleft, hright]
        exact .none
    · exact .none

/-! ## Sorting the fields -/

mutual

/-- No object of the value has two fields of one name, as nothing that `JSON.parse` returns has. -/
def keyed : Json → Prop
  | arr items => keyedItems items
  | obj fields => (fields.map Prod.fst).Nodup ∧ keyedFields fields
  | null | bool _ | num _ | str _ => True

def keyedItems : List Json → Prop
  | [] => True
  | item :: items => keyed item ∧ keyedItems items

def keyedFields : Fields → Prop
  | [] => True
  | (_, value) :: fields => keyed value ∧ keyedFields fields

end

theorem keyedItems_iff {items : List Json} : keyedItems items ↔ ∀ item ∈ items, keyed item := by
  induction items with
  | nil => simp [keyedItems]
  | cons item items ih => simp [keyedItems, ih]

theorem keyedFields_iff {fields : Fields} : keyedFields fields ↔ ∀ e ∈ fields, keyed e.2 := by
  induction fields with
  | nil => simp [keyedFields]
  | cons e fields ih => simp [keyedFields, ih]

theorem keyed_child {v w : Json} {place : Place} (hv : v.keyed) (h : v.child place = some w) :
    w.keyed := by
  rcases v with _ | _ | _ | _ | items | fields <;> rcases place with name | i <;>
    simp only [child, reduceCtorEq] at h
  · exact keyedItems_iff.mp hv w (List.mem_of_getElem? h)
  · obtain ⟨before, after, rfl, -⟩ := List.lookup_eq_some_iff.mp h
    exact keyedFields_iff.mp hv.2 (name, w) (by simp)

mutual

/-- `sortValue(value)`; the fields are sorted by their names, once their values are. -/
def sortValue (localeCompare : String → String → Int) : Json → Json
  | arr items => arr (sortItems localeCompare items)
  | obj fields => obj ((sortFields localeCompare fields).insertionSort fun left right =>
      localeCompare left.1 right.1 ≤ 0)
  | v => v

def sortItems (localeCompare : String → String → Int) : List Json → List Json
  | [] => []
  | item :: items => sortValue localeCompare item :: sortItems localeCompare items

def sortFields (localeCompare : String → String → Int) : Fields → Fields
  | [] => []
  | (name, value) :: fields =>
    (name, sortValue localeCompare value) :: sortFields localeCompare fields

end

variable (localeCompare : String → String → Int)

theorem sortItems_eq (items : List Json) :
    sortItems localeCompare items = items.map (sortValue localeCompare) := by
  induction items with
  | nil => rfl
  | cons item items ih => rw [sortItems, ih, List.map_cons]

theorem map_fst_sortFields (fields : Fields) :
    (sortFields localeCompare fields).map Prod.fst = fields.map Prod.fst := by
  induction fields with
  | nil => rfl
  | cons e fields ih => rw [sortFields, List.map_cons, ih, List.map_cons]

theorem lookup_sortFields (fields : Fields) (name : String) :
    (sortFields localeCompare fields).lookup name =
      (fields.lookup name).map (sortValue localeCompare) := by
  induction fields with
  | nil => rfl
  | cons e fields ih =>
    rw [sortFields, List.lookup_cons, List.lookup_cons, ih]
    split <;> simp

/-- What is looked up does not depend on the order of fields with names of their own. -/
theorem lookup_perm {α : Type} {fields fields' : List (String × α)} (h : fields.Perm fields')
    (hnames : (fields.map Prod.fst).Nodup) (name : String) :
    fields.lookup name = fields'.lookup name := by
  have hnames' : (fields'.map Prod.fst).Nodup := (h.map Prod.fst).nodup_iff.mp hnames
  rcases hlookup : fields'.lookup name with _ | value
  · rw [← Option.not_isSome_iff_eq_none, isSome_lookup] at hlookup ⊢
    exact fun hmem => hlookup ((h.map Prod.fst).mem_iff.mp hmem)
  · obtain ⟨before, after, rfl, -⟩ := List.lookup_eq_some_iff.mp hlookup
    have hmem : (name, value) ∈ fields := h.mem_iff.mpr (by simp)
    exact lookup_eq_some_of_mem hnames hmem

/-- Objects with the same fields in another order are the same. -/
theorem same_of_perm {fields fields' : Fields} (h : fields.Perm fields')
    (hnames : (fields.map Prod.fst).Nodup) : Same (.obj fields) (.obj fields') := by
  refine same_iff.mpr ⟨rfl, ?_⟩
  rintro (name | i)
  · simp only [child, lookup_perm h hnames]
    rcases fields'.lookup name with _ | w
    · exact .none
    · exact .some (.refl w)
  · exact .none

theorem child_sortValue {v : Json} (hv : v.keyed) (place : Place) :
    (sortValue localeCompare v).child place = (v.child place).map (sortValue localeCompare) := by
  rcases v with _ | _ | _ | _ | items | fields <;> rcases place with name | i <;>
    simp only [sortValue, child, Option.map_none]
  · rw [sortItems_eq, List.getElem?_map]
  · rw [← lookup_sortFields]
    refine (lookup_perm (List.perm_insertionSort _ _) ?_ name)
    rw [((List.perm_insertionSort _ _).map Prod.fst).nodup_iff, map_fst_sortFields]
    exact hv.1

/-- **Sorting the fields of all objects keeps what is at every place.** -/
theorem same_sortValue {v : Json} (hv : v.keyed) : Same v (sortValue localeCompare v) := by
  intro path
  induction path generalizing v with
  | nil =>
    rcases v with _ | _ | _ | _ | items | fields <;> simp [follow, sortValue, node, sortItems_eq]
  | cons place path ih =>
    rw [follow, follow, child_sortValue localeCompare hv]
    rcases hchild : v.child place with _ | w
    · rfl
    · exact ih (keyed_child hv hchild)

/-! ## Numbers in a value with sorted fields -/

theorem numericItems_iff {items : List Json} :
    numericItems items = true ↔ ∀ item ∈ items, item.numeric = true := by
  induction items with
  | nil => simp [numericItems]
  | cons item items ih => simp [numericItems, ih]

theorem numericFields_iff {fields : Fields} :
    numericFields fields = true ↔ ∀ e ∈ fields, e.2.numeric = true := by
  induction fields with
  | nil => simp [numericFields]
  | cons e fields ih => simp [numericFields, ih]

mutual

theorem numeric_sortValue : ∀ {v : Json}, v.numeric = true →
    (sortValue localeCompare v).numeric = true
  | .null, _ | .bool _, _ | .str _, _ => rfl
  | .num _, h => h
  | .arr _, h => numericItems_sortItems h
  | .obj fields, h => by
    refine numericFields_iff.mpr fun e he => ?_
    rw [(List.perm_insertionSort _ _).mem_iff] at he
    exact numericFields_iff.mp (numericFields_sortFields h) e he

theorem numericItems_sortItems : ∀ {items : List Json}, numericItems items = true →
    numericItems (sortItems localeCompare items) = true
  | [], _ => rfl
  | _ :: _, h => by
    simp only [numericItems, sortItems, Bool.and_eq_true] at h ⊢
    exact ⟨numeric_sortValue h.1, numericItems_sortItems h.2⟩

theorem numericFields_sortFields : ∀ {fields : Fields}, numericFields fields = true →
    numericFields (sortFields localeCompare fields) = true
  | [], _ => rfl
  | (_, _) :: _, h => by
    simp only [numericFields, sortFields, Bool.and_eq_true] at h ⊢
    exact ⟨numeric_sortValue h.1, numericFields_sortFields h.2⟩

end

/--
**Values with one canonical text are the same.** The canonical text is that of the value with the
fields of all objects sorted.
-/
theorem same_of_canonical {v w : Json} (hv : v.keyed) (hw : w.keyed) (hv' : v.numeric = true)
    (hw' : w.numeric = true)
    (h : (sortValue localeCompare v).stringify = (sortValue localeCompare w).stringify) :
    Same v w := by
  have hsorted : sortValue localeCompare v = sortValue localeCompare w :=
    stringify_injective_of_numeric (numeric_sortValue localeCompare hv')
      (numeric_sortValue localeCompare hw') h
  have hleft := same_sortValue localeCompare hv
  rw [hsorted] at hleft
  exact hleft.trans (same_sortValue localeCompare hw).symm

end InboxServer.Json
