import Mathlib

/-!
# Trees of files with symbolic links

The entries of a file system by their locations, as the names on the way from its root, and what is
done to it by the operations that unpack an archive. A symbolic link is kept with its literal target
and followed whenever a path leads through it. An operation that fails leaves what it has done before
that.

* `Disk.Changes` — what is done is done below a directory, and what is new there is known
* `Disk.makeParents_plain` — without a link on the way, directories are made where the names say
* `Disk.changes_writeFile` — a file at a free place is a new one
-/

namespace Infra

/-- The names from the root of the file system. -/
abbrev Location := List String

inductive Entry where
  | dir
  /-- Two names of one file have one inode. -/
  | file (inode : Nat)
  | symlink (target : String)
  deriving DecidableEq

/-- What is done to a file system. -/
inductive FileEffect where
  /-- An entry is created or replaced, or its attributes are set. -/
  | entry (location : Location)
  /-- The content of a file that exists is written. -/
  | content (inode : Nat)
  deriving DecidableEq

structure Disk where
  tree : Location → Option Entry
  /-- The inode of the next file. -/
  nextInode : Nat
  effects : List FileEffect

/-! ## Paths -/

/-- The names of a path; empty ones and `.` do not matter. -/
def pathNames (path : String) : List String :=
  ((path.toList.splitOn '/').map String.ofList).filter fun name => name ≠ "" && name ≠ "."

def isAbsolutePath (path : String) : Bool := path.toList.head? = some '/'

namespace Disk

variable (disk : Disk)

/-- The entry at a location; the root is a directory. -/
def entryAt (location : Location) : Option Entry :=
  if location = [] then some .dir else disk.tree location

/-- Where the names of a link at `here` are looked up. -/
def linkBase (here : Location) (target : String) : Location :=
  if isAbsolutePath target then [] else here

/-- The location that names lead to, if the links among them are followed by `follow`. -/
def locateWith (follow : Location → List String → Option Location) :
    Location → List String → Option Location
  | here, [] => some here
  | here, name :: names =>
    if name = ".." then locateWith follow here.dropLast names
    else match disk.entryAt (here ++ [name]) with
      | some .dir => locateWith follow (here ++ [name]) names
      | some (.symlink target) => follow (linkBase here target) (pathNames target ++ names)
      | some (.file _) | none => if names = [] then some (here ++ [name]) else none

/-- The location that names lead to; its entry may be missing. At most `links` links are followed. -/
def locate : Nat → Location → List String → Option Location
  | 0 => disk.locateWith fun _ _ => none
  | links + 1 => disk.locateWith (locate links)

/-- The location of a directory. -/
def locateDir (links : Nat) (here : Location) (names : List String) : Option Location :=
  (disk.locate links here names).filter fun location => disk.entryAt location = some .dir

/-- The location of the last name, which is not followed if it is that of a link. -/
def locateEntry (links : Nat) (here : Location) (names : List String) : Option Location :=
  match names.getLast? with
  | none => some here
  | some name => (disk.locateDir links here names.dropLast).map fun parent =>
    if name = ".." then parent.dropLast else parent ++ [name]

/-! ## Operations -/

/-- An entry is put at a location. -/
def put (location : Location) (entry : Entry) : Disk :=
  { disk with
    tree := Function.update disk.tree location (some entry)
    effects := disk.effects ++ [.entry location] }

/-- The directories on the way, made where they are missing, and the location of the last one. -/
def makeParents (links : Nat) : Disk → Location → List String → Disk × Option Location
  | disk, here, [] => (disk, some here)
  | disk, here, name :: names =>
    if name = ".." then makeParents links disk here.dropLast names
    else match disk.entryAt (here ++ [name]) with
      | none => makeParents links (disk.put (here ++ [name]) .dir) (here ++ [name]) names
      | some .dir => makeParents links disk (here ++ [name]) names
      | some (.file _) => (disk, none)
      | some (.symlink target) =>
        match disk.locateDir links (linkBase here target) (pathNames target) with
        | some location => makeParents links disk location names
        | none => (disk, none)

/-- A directory is made, or the attributes of the one that is there are set. -/
def makeDir (location : Location) : Disk :=
  match disk.entryAt location with
  | none => disk.put location .dir
  | some .dir => { disk with effects := disk.effects ++ [.entry location] }
  | some (.file _) | some (.symlink _) => disk

/-- A file is created or written; a link at its place is followed. -/
def writeFile (links : Nat) (parent : Location) (name : String) : Disk :=
  match disk.locate links parent [name] with
  | none => disk
  | some location =>
    match disk.entryAt location with
    | none => { disk.put location (.file disk.nextInode) with nextInode := disk.nextInode + 1 }
    | some (.file inode) => { disk with effects := disk.effects ++ [.content inode] }
    | some .dir | some (.symlink _) => disk

/-- An entry that is no directory is put in the place of what is there, if that is none either. -/
def replace (location : Location) (entry : Entry) : Disk :=
  match disk.entryAt location with
  | some .dir => disk
  | some (.file _) | some (.symlink _) | none => disk.put location entry

/-- One more name for the entry at `source`. -/
def link (source location : Location) : Disk :=
  match disk.entryAt source with
  | none | some .dir => disk
  | some entry => disk.replace location entry

/-! ## What is changed -/

variable {disk : Disk}

theorem entryAt_put (location location' : Location) (entry : Entry) (hne : location ≠ []) :
    (disk.put location entry).entryAt location' =
      if location' = location then some entry else disk.entryAt location' := by
  unfold entryAt put
  by_cases h : location' = location
  · subst h
    simp [hne]
  · simp [h]

theorem ne_nil_of_entryAt {location : Location} {entry : Option Entry}
    (h : disk.entryAt location = entry) (hne : entry ≠ some .dir) : location ≠ [] := by
  rintro rfl
  exact hne h.symm

/--
What is done is done to entries below `base`. The entries that are new are directories, or allowed by
`fresh`.
-/
structure Changes (base : Location) (fresh : Location → Entry → Prop) (disk disk' : Disk) : Prop where
  effects : ∃ made : List (List String), disk'.effects = disk.effects ++
    made.map fun names => .entry (base ++ names)
  entries : ∀ location entry, disk'.entryAt location = some entry →
    disk.entryAt location = some entry ∨ entry = .dir ∨ fresh location entry

section Changes

variable {base : Location} {fresh : Location → Entry → Prop} {disk' disk'' : Disk}

theorem Changes.refl (base : Location) (fresh : Location → Entry → Prop) (disk : Disk) :
    Changes base fresh disk disk where
  effects := ⟨[], by simp⟩
  entries _ _ h := .inl h

theorem Changes.mono {fresh' : Location → Entry → Prop} (h : Changes base fresh disk disk')
    (hfresh : ∀ location entry, fresh location entry → fresh' location entry) :
    Changes base fresh' disk disk' where
  effects := h.effects
  entries location entry hentry :=
    (h.entries location entry hentry).imp_right fun hnew => hnew.imp_right (hfresh location entry)

theorem Changes.trans (h : Changes base fresh disk disk') (h' : Changes base fresh disk' disk'') :
    Changes base fresh disk disk'' where
  effects := by
    obtain ⟨made, hmade⟩ := h.effects
    obtain ⟨made', hmade'⟩ := h'.effects
    exact ⟨made ++ made', by rw [hmade', hmade]; simp⟩
  entries location entry hentry := by
    rcases h'.entries location entry hentry with hentry | hnew
    · exact h.entries location entry hentry
    · exact .inr hnew

theorem changes_put {names : List String} {entry : Entry} (hne : base ++ names ≠ [])
    (hnew : entry = .dir ∨ fresh (base ++ names) entry) :
    Changes base fresh disk (disk.put (base ++ names) entry) where
  effects := ⟨[names], rfl⟩
  entries location entry' hentry := by
    rw [entryAt_put _ _ _ hne] at hentry
    by_cases hlocation : location = base ++ names
    · rw [if_pos hlocation] at hentry
      rw [hlocation, ← Option.some.inj hentry]
      exact .inr hnew
    · rw [if_neg hlocation] at hentry
      exact .inl hentry

/-- The attributes of an entry are set. -/
theorem changes_attributes (names : List String) :
    Changes base fresh disk { disk with effects := disk.effects ++ [.entry (base ++ names)] } where
  effects := ⟨[names], rfl⟩
  entries _ _ h := .inl h

theorem changes_makeDir (names : List String) :
    Changes base fresh disk (disk.makeDir (base ++ names)) := by
  unfold makeDir
  split
  · next hnone => exact changes_put (ne_nil_of_entryAt hnone (by simp)) (.inl rfl)
  · exact changes_attributes names
  · exact .refl base fresh disk
  · exact .refl base fresh disk

theorem changes_replace {names : List String} {entry : Entry} (hnew : fresh (base ++ names) entry) :
    Changes base fresh disk (disk.replace (base ++ names) entry) := by
  unfold replace
  split
  · exact .refl base fresh disk
  · next h => exact changes_put (ne_nil_of_entryAt h (by simp)) (.inr hnew)
  · next h => exact changes_put (ne_nil_of_entryAt h (by simp)) (.inr hnew)
  · next h => exact changes_put (ne_nil_of_entryAt h (by simp)) (.inr hnew)

theorem changes_link {source : Location} {names : List String}
    (hnew : ∀ entry, entry ≠ .dir → fresh (base ++ names) entry) :
    Changes base fresh disk (disk.link source (base ++ names)) := by
  unfold link
  split
  · exact .refl base fresh disk
  · exact .refl base fresh disk
  · next entry hdir _ => exact changes_replace (hnew entry hdir)

/-- A file whose place is free, or that of a directory, is no file that was there. -/
theorem changes_writeFile (links : Nat) {names : List String} {name : String} (hname : name ≠ "..")
    (hfree : ∀ entry, disk.entryAt (base ++ names ++ [name]) = some entry → entry = .dir)
    (hnew : ∀ inode, fresh (base ++ names ++ [name]) (.file inode)) :
    Changes base fresh disk (disk.writeFile links (base ++ names) name) := by
  have hlocate : disk.locate links (base ++ names) [name] = some (base ++ names ++ [name]) := by
    cases links <;>
    · rw [locate, locateWith, if_neg hname]
      rcases hentry : disk.entryAt (base ++ names ++ [name]) with _ | entry
      · rfl
      · rw [hfree entry hentry]
        rfl
  rw [writeFile, hlocate]
  dsimp only
  rcases hentry : disk.entryAt (base ++ names ++ [name]) with _ | entry
  · rw [List.append_assoc] at hentry hnew ⊢
    have hput : Changes base fresh disk (disk.put (base ++ (names ++ [name])) (.file disk.nextInode)) :=
      changes_put (ne_nil_of_entryAt hentry (by simp)) (.inr (hnew _))
    exact ⟨hput.effects, hput.entries⟩
  · obtain rfl := hfree entry hentry
    exact .refl base fresh disk

/-- **Without a link on the way, directories are made below the base, where the names say.** -/
theorem makeParents_plain (links : Nat) {names : List String} (hnames : ".." ∉ names)
    {disk : Disk} {done : List String} (hlinks : ∀ part target, part ≠ [] → part <+: names →
      disk.entryAt (base ++ done ++ part) ≠ some (.symlink target)) :
    Changes base (fun _ _ => False) disk (makeParents links disk (base ++ done) names).1 ∧
      ∀ location ∈ (makeParents links disk (base ++ done) names).2,
        location = base ++ done ++ names := by
  induction names generalizing disk done with
  | nil =>
    refine ⟨.refl base _ disk, ?_⟩
    rintro location ⟨⟩
    simp
  | cons name names ih =>
    rw [makeParents, if_neg fun h => hnames (List.mem_cons.mpr (.inl h.symm))]
    have hrest : ".." ∉ names := fun h => hnames (List.mem_cons_of_mem _ h)
    have hnext : base ++ done ++ [name] = base ++ (done ++ [name]) := List.append_assoc _ _ _
    have hinto : ∀ part : List String, part <+: names → name :: part <+: name :: names :=
      fun part hpart => List.cons_prefix_cons.mpr ⟨rfl, hpart⟩
    have hon : ∀ part target, part ≠ [] → part <+: names →
        disk.entryAt (base ++ (done ++ [name]) ++ part) ≠ some (.symlink target) := by
      intro part target hne hpart
      have := hlinks (name :: part) target (by simp) (hinto part hpart)
      simpa using this
    split
    · next hnone =>
      -- the directory that is made here is no link further on
      rw [hnext] at hnone ⊢
      have hput : Changes base (fun _ _ => False) disk (disk.put (base ++ (done ++ [name])) .dir) :=
        changes_put (ne_nil_of_entryAt hnone (by simp)) (.inl rfl)
      have hstill : ∀ part target, part ≠ [] → part <+: names →
          (disk.put (base ++ (done ++ [name])) .dir).entryAt (base ++ (done ++ [name]) ++ part) ≠
            some (.symlink target) := by
        intro part target hne hpart hlink
        rcases hput.entries _ _ hlink with hlink | hdir | hfalse
        · exact hon part target hne hpart hlink
        · cases hdir
        · exact hfalse
      obtain ⟨hmakes, hlocation⟩ := ih hrest hstill
      exact ⟨hput.trans hmakes, by simpa using hlocation⟩
    · rw [hnext]
      obtain ⟨hmakes, hlocation⟩ := ih hrest hon
      exact ⟨hmakes, by simpa using hlocation⟩
    · exact ⟨.refl base _ disk, by simp⟩
    · next target hlink =>
      exact absurd hlink (hlinks [name] target (by simp) (hinto [] List.nil_prefix))

end Changes

end Disk

end Infra
