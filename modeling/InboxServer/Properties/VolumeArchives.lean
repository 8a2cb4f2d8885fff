import InboxServer.Scripts.ArchiveLegacyVolumes

/-!
# Where an accepted archive is extracted to

The check refuses a member below a symbolic link by the names of the members. A hard link to a
symbolic link has a name of its own, so a member below it is not refused. An accepted archive stays
in its directory as long as no member is extracted below such a name.

* `validateTar_accepted` — what the check says about the members
* `extractMember_extracted` — one member keeps the extraction in the directory
* `extract_contained` — and so does a run that never goes below a hard link to a symbolic link
* `hardLink_escapes` — one that does leaves the directory
-/

namespace InboxServer.Volumes

open Infra

/-! ## What the check says -/

/-- The parents of a path are the beginnings of it. -/
theorem mem_parentsOf {path parent : PathParts} (h : parent <+: path) (hne : parent ≠ path) :
    parent ∈ parentsOf path := by
  have hmem : parent ∈ path.inits := (List.mem_inits _ _).mpr h
  have hlast : path.inits = parentsOf path ++ [path] := by
    clear hmem h hne
    unfold parentsOf
    induction path with
    | nil => rfl
    | cons name path ih =>
      rw [List.inits_cons, ih]
      simp [List.dropLast_cons_of_ne_nil]
  rw [hlast, List.mem_append, List.mem_singleton] at hmem
  exact hmem.resolve_right hne

theorem safeMemberPath_ok {name : String} {path : PathParts} (h : safeMemberPath name = .ok path) :
    isAbsolutePath name = false ∧ ".." ∉ pathNames name ∧ path = pathNames name := by
  unfold safeMemberPath at h
  split_ifs at h with hsafe
  simp only [Bool.or_eq_true, decide_eq_true_eq, not_or, Bool.not_eq_true] at hsafe
  exact ⟨hsafe.1, hsafe.2, (Except.ok.inj h).symm⟩

/-- A member that passes has a safe and new path. -/
theorem checkMember_ok {seen seen' : Seen} {member : TarMember}
    (h : checkMember seen member = .ok seen') :
    isAbsolutePath member.name = false ∧ ".." ∉ member.path ∧ member.path ∉ seen.paths ∧
      seen'.paths = member.path :: seen.paths ∧ seen.symlinks ⊆ seen'.symlinks ∧
      ((∃ linkname, member.kind = .sym linkname) → member.path ∈ seen'.symlinks) := by
  unfold checkMember at h
  rcases hpath : safeMemberPath member.name with e | path
  · rw [hpath] at h
    cases h
  · obtain ⟨habsolute, hinside, rfl⟩ := safeMemberPath_ok hpath
    rw [hpath] at h
    simp only [bind, Except.bind] at h
    split_ifs at h with hseen
    refine ⟨habsolute, hinside, hseen, ?_⟩
    rcases hkind : member.kind with _ | _ | linkname | linkname | _
    · rw [hkind] at h
      cases h
      exact ⟨rfl, fun _ hmem => hmem, by simp⟩
    · rw [hkind] at h
      cases h
      exact ⟨rfl, fun _ hmem => hmem, by simp⟩
    · rw [hkind] at h
      dsimp only at h
      split at h
      · cases h
      · cases h
        exact ⟨rfl, fun _ hmem => List.mem_cons_of_mem _ hmem, fun _ => List.mem_cons_self⟩
    · rw [hkind] at h
      dsimp only at h
      split at h
      · cases h
      · cases h
        exact ⟨rfl, fun _ hmem => hmem, by simp⟩
    · rw [hkind] at h
      cases h

/-- What is known of the members once they are accepted. -/
structure Accepted (members : List TarMember) : Prop where
  relative : ∀ m ∈ members, isAbsolutePath m.name = false
  inside : ∀ m ∈ members, ".." ∉ m.path
  distinct : (members.map TarMember.path).Nodup
  /-- No member is below a symbolic link. -/
  untied : ∀ m ∈ members, ∀ link ∈ members, (∃ linkname, link.kind = .sym linkname) →
    link.path <+: m.path → link.path = m.path

/-- The members that one loop has seen, by what it remembers of them. -/
structure Loop (members : List TarMember) (seen seen' : Seen) : Prop where
  relative : ∀ m ∈ members, isAbsolutePath m.name = false
  inside : ∀ m ∈ members, ".." ∉ m.path
  distinct : (members.map TarMember.path).Nodup
  new : ∀ m ∈ members, m.path ∉ seen.paths
  paths : ∀ m ∈ members, m.path ∈ seen'.paths
  symlinks : ∀ m ∈ members, (∃ linkname, m.kind = .sym linkname) → m.path ∈ seen'.symlinks
  keeps : seen.paths ⊆ seen'.paths ∧ seen.symlinks ⊆ seen'.symlinks

/-- The members pass one after the other. -/
theorem checkMembers_ok {members : List TarMember} {seen seen' : Seen}
    (h : members.foldlM checkMember seen = .ok seen') : Loop members seen seen' := by
  induction members generalizing seen with
  | nil =>
    cases h
    exact ⟨by simp, by simp, by simp, by simp, by simp, by simp, fun _ h => h, fun _ h => h⟩
  | cons member members ih =>
    rw [List.foldlM_cons] at h
    rcases hmember : checkMember seen member with e | next
    · rw [hmember] at h
      cases h
    · rw [hmember] at h
      obtain ⟨habsolute, hinside, hnew, hpaths, hsymlinks, hlink⟩ := checkMember_ok hmember
      have hloop := ih h
      have hpath : member.path ∈ next.paths := hpaths ▸ List.mem_cons_self
      refine ⟨?_, ?_, ?_, ?_, ?_, ?_, fun _ hmem => hloop.keeps.1 ?_,
        fun _ hmem => hloop.keeps.2 (hsymlinks hmem)⟩
      · exact List.forall_mem_cons.mpr ⟨habsolute, hloop.relative⟩
      · exact List.forall_mem_cons.mpr ⟨hinside, hloop.inside⟩
      · rw [List.map_cons, List.nodup_cons]
        refine ⟨fun hmem => ?_, hloop.distinct⟩
        obtain ⟨m, hm, heq⟩ := List.mem_map.mp hmem
        exact hloop.new m hm (heq ▸ hpath)
      · refine List.forall_mem_cons.mpr ⟨hnew, fun m hm hmem => hloop.new m hm ?_⟩
        exact hpaths ▸ List.mem_cons_of_mem _ hmem
      · exact List.forall_mem_cons.mpr ⟨hloop.keeps.1 hpath, hloop.paths⟩
      · exact List.forall_mem_cons.mpr ⟨fun h => hloop.keeps.2 (hlink h), hloop.symlinks⟩
      · rw [hpaths]
        exact List.mem_cons_of_mem _ hmem

/-- An archive that is valid is accepted. -/
theorem validateTar_accepted {members : List TarMember} (h : validateTar members = .ok ()) :
    Accepted members := by
  unfold validateTar at h
  rcases hloop : members.foldlM checkMember { paths := [], symlinks := [] } with e | seen
  · rw [hloop] at h
    cases h
  · have hseen := checkMembers_ok hloop
    rw [hloop] at h
    simp only [bind, Except.bind] at h
    split_ifs at h with htied
    refine ⟨hseen.relative, hseen.inside, hseen.distinct, fun m hm link hlink hkind hbelow => ?_⟩
    by_contra hne
    refine htied (List.any_eq_true.mpr ⟨m.path, hseen.paths m hm, List.any_eq_true.mpr
      ⟨link.path, mem_parentsOf hbelow hne, ?_⟩⟩)
    simpa using hseen.symlinks link hlink hkind

/-! ## What is extracted -/

/-- A symbolic or a hard link. -/
def TarMember.IsLink (member : TarMember) : Prop :=
  ∃ linkname, member.kind = .sym linkname ∨ member.kind = .lnk linkname

/-- What may be at the place of a member once it is extracted, besides a directory. -/
def Places (root : Location) (member : TarMember) (location : Location) (entry : Entry) : Prop :=
  location = root ++ member.path ∧ ∀ target, entry = .symlink target → member.IsLink

/-- Nothing was done outside the root, and what is not a directory there comes from a member. -/
structure Extracted (root : Location) (before : List TarMember) (disk : Disk) : Prop where
  effects : ∀ effect ∈ disk.effects, ∃ names, effect = .entry (root ++ names)
  entries : ∀ names entry, disk.entryAt (root ++ names) = some entry →
    entry = .dir ∨ ∃ member ∈ before, Places root member (root ++ names) entry

variable {links : Nat} {root : Location} {disk disk' : Disk} {before : List TarMember}
  {member : TarMember}

/-- A member that is placed below the root leaves everything else. -/
theorem Extracted.step (h : Extracted root before disk)
    (hchanges : Disk.Changes root (Places root member) disk disk') :
    Extracted root (before ++ [member]) disk' where
  effects effect heffect := by
    obtain ⟨made, hmade⟩ := hchanges.effects
    rw [hmade, List.mem_append] at heffect
    rcases heffect with heffect | heffect
    · exact h.effects effect heffect
    · obtain ⟨names, -, rfl⟩ := List.mem_map.mp heffect
      exact ⟨names, rfl⟩
  entries names entry hentry := by
    rcases hchanges.entries _ _ hentry with hentry | hdir | hplaces
    · rcases h.entries names entry hentry with hdir | ⟨other, hother, hplaces⟩
      · exact .inl hdir
      · exact .inr ⟨other, List.mem_append_left _ hother, hplaces⟩
    · exact .inl hdir
    · exact .inr ⟨member, by simp, hplaces⟩

/-- A member is put at its own place. -/
theorem changes_placeMember {names : List String} {name : String} (hpath : member.path = names ++ [name])
    (hname : name ≠ "..")
    (hfree : ∀ entry, disk.entryAt (root ++ member.path) = some entry → entry = .dir) :
    Disk.Changes root (Places root member) disk
      (placeMember links root disk (root ++ names) name member.kind) := by
  have hlocation : root ++ names ++ [name] = root ++ member.path := by
    rw [hpath, List.append_assoc]
  unfold placeMember
  rw [if_neg hname, hlocation]
  rcases hkind : member.kind with _ | _ | linkname | linkname | _
  · dsimp only
    refine Disk.changes_writeFile links hname ?_ fun inode => ⟨hlocation, by simp⟩
    rw [hlocation]
    exact hfree
  · exact Disk.changes_makeDir member.path
  · exact Disk.changes_replace ⟨rfl, fun _ _ => ⟨linkname, .inl hkind⟩⟩
  · dsimp only
    split
    · exact Disk.changes_link fun _ _ => ⟨rfl, fun _ _ => ⟨linkname, .inr hkind⟩⟩
    · exact .refl root _ disk
  · exact .refl root _ disk

/-- A member that is below no symbolic link of the tree is extracted below the root. -/
theorem extractMember_extracted (h : Extracted root before disk) (habsolute : isAbsolutePath member.name = false)
    (hinside : ".." ∉ member.path) (hnew : ∀ other ∈ before, other.path ≠ member.path)
    (hlinks : ∀ part target, part <+: member.path → part ≠ member.path →
      disk.entryAt (root ++ part) ≠ some (.symlink target)) :
    Extracted root (before ++ [member]) (extractMember links root disk member) := by
  refine h.step ?_
  unfold extractMember
  rw [if_neg (by simp [habsolute])]
  dsimp only
  rcases hlast : (pathNames member.name).getLast? with _ | name
  · by_cases hdir : member.kind = .dir
    · rw [if_pos hdir]
      have hmake : Disk.Changes root (Places root member) disk (disk.makeDir (root ++ [])) :=
        Disk.changes_makeDir []
      rwa [List.append_nil] at hmake
    · rw [if_neg hdir]
      exact .refl root _ disk
  · have hpath : member.path = member.path.dropLast ++ [name] :=
      (List.dropLast_append_getLast? name hlast).symm
    have hshorter : ∀ part : List String, part <+: member.path.dropLast → part ≠ member.path := by
      rintro part hpart rfl
      have hlength := hpart.length_le
      rw [hpath] at hlength
      simp at hlength
    have hparents : ∀ part target, part ≠ [] → part <+: member.path.dropLast →
        disk.entryAt (root ++ [] ++ part) ≠ some (.symlink target) := by
      intro part target _ hpart
      rw [List.append_nil]
      exact hlinks part target (hpart.trans (List.dropLast_prefix _)) (hshorter part hpart)
    have hdots : ".." ∉ member.path.dropLast := fun hmem => hinside (List.mem_of_mem_dropLast hmem)
    obtain ⟨hmade, hwhere⟩ := Disk.makeParents_plain links hdots hparents
    rw [List.append_nil] at hmade hwhere
    have hmade' : Disk.Changes root (Places root member) disk
        (Disk.makeParents links disk root member.path.dropLast).1 :=
      hmade.mono fun _ _ => False.elim
    dsimp only
    rcases hparent : Disk.makeParents links disk root (pathNames member.name).dropLast with
      ⟨made, _ | parent⟩
    · rw [TarMember.path, hparent] at hmade'
      exact hmade'
    · rw [TarMember.path, hparent] at hmade hmade' hwhere
      obtain rfl := hwhere parent rfl
      refine hmade'.trans (changes_placeMember hpath ?_ fun entry hentry => ?_)
      · rintro rfl
        exact hinside (hpath ▸ by simp)
      -- what is there already is a directory, as no member before it has its path
      · rcases hmade.entries _ _ hentry with hold | hdir | hfalse
        · rcases h.entries member.path entry hold with hdir | ⟨other, hother, hplaces⟩
          · exact hdir
          · exact absurd (List.append_cancel_left hplaces.1).symm (hnew other hother)
        · exact hdir
        · exact hfalse.elim

/-! ## Runs -/

variable {members : List TarMember}

/--
No member is extracted below a hard-link member whose name stands for a symbolic link at that time.
-/
def Untraversed (links : Nat) (root : Location) (disk : Disk) (members : List TarMember) : Prop :=
  ∀ before member after, members = before ++ member :: after → ∀ link ∈ before,
    (∃ linkname, link.kind = .lnk linkname) → link.path <+: member.path → link.path ≠ member.path →
      ∀ target, (extractAll links root disk before).entryAt (root ++ link.path) ≠ some (.symlink target)

/-- All members are placed below the root. -/
theorem extractAll_extracted (hdisk : Extracted root [] disk) (haccepted : Accepted members)
    (huntraversed : Untraversed links root disk members) {before after : List TarMember}
    (hmembers : members = before ++ after) :
    Extracted root before (extractAll links root disk before) := by
  induction before using List.reverseRecOn generalizing after with
  | nil => exact hdisk
  | append_singleton before member ih =>
    rw [List.append_assoc] at hmembers
    have hbefore := ih hmembers
    have hmember : member ∈ members := by simp [hmembers]
    have hothers : ∀ other ∈ before, other ∈ members := fun other hother => by simp [hmembers, hother]
    have hdistinct := haccepted.distinct
    rw [hmembers, List.map_append] at hdistinct
    rw [extractAll, List.foldl_append]
    refine extractMember_extracted hbefore (haccepted.relative member hmember)
      (haccepted.inside member hmember) (fun other hother heq => ?_) fun part target hpart hne hlink => ?_
    · exact List.disjoint_of_nodup_append hdistinct (List.mem_map_of_mem hother)
        (List.mem_map.mpr ⟨member, by simp, heq.symm⟩)
    · rcases hbefore.entries part _ hlink with hdir | ⟨other, hother, hat, hislink⟩
      · cases hdir
      · obtain rfl := List.append_cancel_left hat
        obtain ⟨linkname, hsym | hhard⟩ := hislink target rfl
        · exact hne (haccepted.untied member hmember other (hothers other hother) ⟨linkname, hsym⟩ hpart)
        · exact huntraversed before member after hmembers other hother ⟨linkname, hhard⟩ hpart hne
            target hlink

/--
**An accepted archive that is never extracted below a hard link to a symbolic link stays in its
directory.** Whatever has been extracted, nothing outside the directory was created, replaced or
written.
-/
theorem extract_contained (links : Nat) (root : Location) (disk : Disk)
    (hroot : disk.entryAt root = some .dir)
    (hempty : ∀ names, names ≠ [] → disk.entryAt (root ++ names) = none) (hnew : disk.effects = [])
    (members : List TarMember) (hvalid : validateTar members = .ok ())
    (huntraversed : Untraversed links root disk members) (before after : List TarMember)
    (hmembers : members = before ++ after) :
    ∀ effect ∈ (extractAll links root disk before).effects, ∃ names, effect = .entry (root ++ names) := by
  refine (extractAll_extracted ⟨by simp [hnew], fun names entry hentry => ?_⟩
    (validateTar_accepted hvalid) huntraversed hmembers).effects
  rcases eq_or_ne names [] with rfl | hne
  · rw [List.append_nil, hroot] at hentry
    exact .inl (Option.some.inj hentry).symm
  · rw [hempty names hne] at hentry
    cases hentry

/-- An archive without members below its hard links never goes below one. -/
theorem untraversed_of_untied (links : Nat) (root : Location) (disk : Disk)
    (h : ∀ link ∈ members, ∀ member ∈ members, (∃ linkname, link.kind = .lnk linkname) →
      link.path <+: member.path → link.path = member.path) :
    Untraversed links root disk members := by
  intro before member after hmembers link hlink hkind hbelow hne
  exact absurd (h link (by simp [hmembers, hlink]) member (by simp [hmembers]) hkind hbelow) hne

namespace Sample

/-- An empty directory `in` in the directory `srv`. -/
def emptyDisk : Disk where
  tree location := if location = ["srv"] ∨ location = ["srv", "in"] then some .dir else none
  nextInode := 0
  effects := []

/-- A volume with a file of two names and a symbolic link to its directory. -/
def volume : List TarMember :=
  [⟨".", .dir⟩, ⟨"./base/PG_VERSION", .file⟩, ⟨"./current", .sym "base"⟩,
    ⟨"./PG_VERSION", .lnk "base/PG_VERSION"⟩]

/-- The root by way of `p/q`, what is above it by way of `x`, and `h` as one more name of `x`. -/
def escaping : List TarMember :=
  [⟨"p/q", .sym ".."⟩, ⟨"x", .sym "p/q/.."⟩, ⟨"h", .lnk "x"⟩, ⟨"h/evil", .file⟩]

theorem extract_contained_volume :
    (extractAll 40 ["srv", "in"] emptyDisk volume).entryAt ["srv", "in", "PG_VERSION"] = some (.file 0) ∧
      ∀ effect ∈ (extractAll 40 ["srv", "in"] emptyDisk volume).effects,
        ∃ names, effect = .entry (["srv", "in"] ++ names) := by
  refine ⟨by decide +kernel, extract_contained 40 ["srv", "in"] emptyDisk rfl (fun names hne => ?_) rfl volume
    (by decide +kernel) (untraversed_of_untied 40 _ _ ?_) volume [] (by simp)⟩
  · simp [Disk.entryAt, emptyDisk, hne]
  · rintro link hlink member hmember ⟨linkname, hkind⟩ hbelow
    simp only [volume, List.mem_cons, List.not_mem_nil, or_false] at hlink
    rcases hlink with rfl | rfl | rfl | rfl
    · cases hkind
    · cases hkind
    · cases hkind
    · revert hbelow
      revert member
      decide +kernel

/-- The hard link writes through the symbolic link, outside the root. -/
theorem hardLink_escapes :
    validateTar escaping = .ok () ∧
      ¬ ∀ effect ∈ (extractAll 40 ["srv", "in"] emptyDisk escaping).effects,
        ∃ names, effect = .entry (["srv", "in"] ++ names) := by
  have hevil : FileEffect.entry ["srv", "evil"] ∈
      (extractAll 40 ["srv", "in"] emptyDisk escaping).effects := by decide +kernel
  refine ⟨by decide +kernel, fun h => ?_⟩
  obtain ⟨names, hnames⟩ := h _ hevil
  simp at hnames

end Sample

end InboxServer.Volumes
