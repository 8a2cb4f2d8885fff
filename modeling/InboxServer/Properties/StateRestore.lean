import InboxServer.Release.StateExecutor

/-!
# A state-restore rehearsal verifies, cleans up and reports

A confirmed rehearsal of a plan with all its steps, whatever the files, the clock and the hook come
to.

* `restore_reports` — unless something falsy is thrown or a date is none, the report is there exactly
  when no reading of the clock fails outside of the `try`
* `restore_guarded` — nothing is written before the sources are verified, in any run
-/

namespace InboxServer.StateRestore

open Infra Release

abbrev RestoreEvent := Event RestoreCall RestoreCall.Answer

/-! ## What a run has seen -/

/-- The directories that were created. -/
def createdIn (trace : List RestoreEvent) : List String :=
  trace.filterMap fun
    | ⟨.mkdtemp _, .ok root⟩ => some root.1
    | _ => none

/-- What was to be removed. -/
def removalsIn (trace : List RestoreEvent) : List String :=
  trace.filterMap fun
    | ⟨.rm path, _⟩ => some path
    | _ => none

/-- The path of a call that writes, but for the creation of the directory. -/
def writtenBy : RestoreCall → Option String
  | .mkdir path | .writeFile path _ | .chmod path _ => some path
  | .now _ | .arrange _ | .lstat _ | .lstatLeft _ | .readFile _ | .mkdtemp _ | .afterRestore _
  | .rm _ => none

/-- A call that writes. -/
def Writes (call : RestoreCall) : Bool :=
  (writtenBy call).isSome || match call with
    | .mkdtemp _ => true
    | _ => false

/-- A clock that fails where a failure is recorded, or in the cleanup. -/
def Escapes : RestoreEvent → Bool
  | ⟨.now _, .ok (some _)⟩ => false
  | ⟨.now .failure, _⟩ | ⟨.now .cleanupStart, _⟩ | ⟨.now .cleanupEnd, _⟩ => true
  | _ => false

/-- A failure that the code takes for none: a falsy value thrown in the `try`, or `NaN` for the RTO. -/
def PassesUnseen : RestoreEvent → Bool
  | ⟨.now .rto, .ok none⟩ => true
  | ⟨.now _, .error error⟩ | ⟨.lstat _, .error error⟩ | ⟨.readFile _, .error error⟩
  | ⟨.mkdtemp _, .error error⟩ | ⟨.mkdir _, .error error⟩ | ⟨.writeFile .., .error error⟩
  | ⟨.chmod .., .error error⟩ | ⟨.afterRestore _, .error error⟩ => !error.truthy
  | _ => false

/-- Nothing in the trace escapes. -/
def Contained (trace : List RestoreEvent) : Prop := ∀ e ∈ trace, Escapes e = false

/-- Nothing in the trace passes unseen. -/
def Noticed (trace : List RestoreEvent) : Prop := ∀ e ∈ trace, PassesUnseen e = false

@[simp] theorem createdIn_append (first second : List RestoreEvent) :
    createdIn (first ++ second) = createdIn first ++ createdIn second := List.filterMap_append

@[simp] theorem removalsIn_append (first second : List RestoreEvent) :
    removalsIn (first ++ second) = removalsIn first ++ removalsIn second := List.filterMap_append

theorem Noticed.left {first second : List RestoreEvent} (h : Noticed (first ++ second)) :
    Noticed first := fun e he => h e (List.mem_append_left _ he)

theorem Noticed.right {first second : List RestoreEvent} (h : Noticed (first ++ second)) :
    Noticed second := fun e he => h e (List.mem_append_right _ he)

theorem Contained.append {first second : List RestoreEvent} (h : Contained first)
    (h' : Contained second) : Contained (first ++ second) :=
  fun e he => (List.mem_append.mp he).elim (h e) (h' e)

/-! ## What a rehearsal owes -/

section Owed

variable (platform : Platform) (options : RestoreOptions) (plan : StateRestorePlan)

/-- The file of the snapshot was looked at and read, and it is what the manifest says. -/
structure Genuine (seen : List RestoreEvent) (source : ValidatedSnapshot) : Prop where
  stat : ∃ stat : SnapshotStat,
    (⟨.lstat (options.resolveSourcePath source.manifest.path), .ok stat⟩ : RestoreEvent) ∈ seen ∧
      stat.isFile = true ∧ stat.isSymbolicLink = false ∧ stat.size ≤ 65536
  read : (⟨.readFile (options.resolveSourcePath source.manifest.path), .ok source.bytes⟩ :
    RestoreEvent) ∈ seen
  digest : platform.sha256 source.bytes = source.manifest.sha256
  sha256_eq : source.sha256 = source.manifest.sha256
  payload : parseSnapshot platform source.bytes source.manifest.stateKind = .ok source.payload
  identity : identityMatches source.payload source.manifest = true

/-- Every source snapshot has matched its manifest. -/
def Verified (seen : List RestoreEvent) : Prop :=
  ∀ snapshot ∈ plan.manifest.snapshots,
    ∃ source, source.manifest = snapshot ∧ Genuine platform options seen source

/-- The restore begins at most a day after the capture. -/
def RpoHeld (seen : List RestoreEvent) : Prop :=
  ∃ captured boundary : Int, platform.dateMs plan.manifest.capturedAt = some captured ∧
    (⟨.now .boundary, .ok (some boundary)⟩ : RestoreEvent) ∈ seen ∧ 0 ≤ boundary - captured ∧
      boundary - captured ≤ 86400000

/-- What has to have been seen before a call that writes. -/
structure Allowed (seen : List RestoreEvent) (call : RestoreCall) : Prop where
  verified : Verified platform options plan seen
  rpo : RpoHeld platform plan seen
  under : ∀ path ∈ writtenBy call, ∃ root ∈ createdIn seen, (root ++ "/").toList <+: path.toList

/-- Each call that writes is allowed by what was seen before it. -/
def Guarded (seen trace : List RestoreEvent) : Prop :=
  ∀ before e after, trace = before ++ e :: after → Writes e.1 →
    Allowed platform options plan (seen ++ before) e.1

/-- A file was looked at and read after the hook: mode `0600`, and the digest of its source. -/
def Restored (seen : List RestoreEvent) (root : String) (snapshot : StateSnapshotManifest) : Prop :=
  ∃ (stat : SnapshotStat) (bytes : List UInt8),
    (⟨.lstat (stateFile root snapshot.stateKind), .ok stat⟩ : RestoreEvent) ∈ seen ∧
      stat.isFile = true ∧ stat.isSymbolicLink = false ∧ stat.mode &&& 0o777 = 0o600 ∧
      (⟨.readFile (stateFile root snapshot.stateKind), .ok bytes⟩ : RestoreEvent) ∈ seen ∧
      platform.sha256 bytes = snapshot.sha256

/-- The reconciliation comes at most 15 minutes after the restore has begun. -/
def RtoHeld (seen : List RestoreEvent) (rto : Option TimeValue) : Prop :=
  ∃ start finish : Int, (⟨.now .boundary, .ok (some start)⟩ : RestoreEvent) ∈ seen ∧
    (⟨.now .rto, .ok (some finish)⟩ : RestoreEvent) ∈ seen ∧ rto = some (some (finish - start)) ∧
      finish - start ≤ 900000

/-- What completed evidence stands for. -/
structure Certified (trace : List RestoreEvent) (evidence : StateRestoreEvidence) where
  root : String
  created : createdIn trace = [root]
  front : List RestoreEvent
  back : List RestoreEvent
  /-- The removal comes last, and the directory is not there any more. -/
  trace_eq : ∃ start removed gone finish, trace = front ++ ⟨.afterRestore root, .ok ()⟩ :: back ++
    [start, ⟨.rm root, removed⟩, ⟨.lstatLeft root, .error gone⟩, finish]
  verified : Verified platform options plan front
  restored : ∀ snapshot ∈ plan.manifest.snapshots, Restored platform back root snapshot
  rto : RtoHeld trace evidence.rtoMilliseconds
  tempDirs : evidence.tempDirs = 0
  steps : evidence.steps.map (fun record => (record.id, record.status)) =
    [(.snapshotPreflight, .succeeded), (.restore, .succeeded), (.startupGate, .succeeded),
      (.reconciliation, .succeeded), (.cleanup, .succeeded)]

/-- The rehearsal returns the evidence, or throws a `StateRestoreRehearsalError` with it. -/
def EndsWith (result : Except RestoreFailure StateRestoreEvidence)
    (evidence : StateRestoreEvidence) : Prop :=
  result = .ok evidence ∧ evidence.event = .completed ∨
    ∃ message, result = .error (.rehearsal message evidence) ∧ evidence.event = .failed

/-- Nothing is written early or elsewhere, what is created is removed, and there is evidence. -/
structure Report (trace : List RestoreEvent)
    (result : Except RestoreFailure StateRestoreEvidence) where
  guarded : Guarded platform options plan [] trace
  created : (createdIn trace).length ≤ 1
  removed : removalsIn trace = createdIn trace
  evidence : StateRestoreEvidence
  ending : EndsWith result evidence
  records : List StateRestoreStepEvidence
  cleanup : StateRestoreStepEvidence
  cleanup_id : cleanup.id = .cleanup
  steps_eq : evidence.steps = records ++ [cleanup]
  certified : result = .ok evidence → Nonempty (Certified platform options plan trace evidence)

end Owed

section Rehearsal

variable {platform : Platform} {options : RestoreOptions} {plan : StateRestorePlan}

/-- What is thrown as it is is not a report. -/
theorem not_report {trace : List RestoreEvent} {error : Raised} :
    ¬ Nonempty (Report platform options plan trace (.error (.thrown error))) := by
  rintro ⟨report⟩
  rcases report.ending with ⟨h, -⟩ | ⟨message, h, -⟩ <;> cases h

/-! ## More is seen -/

/-- What has been read stays read. -/
theorem Genuine.mono {seen seen' : List RestoreEvent} {source : ValidatedSnapshot}
    (h : Genuine platform options seen source) (hsub : seen ⊆ seen') :
    Genuine platform options seen' source where
  stat := by
    obtain ⟨stat, hmem, hstat⟩ := h.stat
    exact ⟨stat, hsub hmem, hstat⟩
  read := hsub h.read
  digest := h.digest
  sha256_eq := h.sha256_eq
  payload := h.payload
  identity := h.identity

theorem Verified.mono {seen seen' : List RestoreEvent} (h : Verified platform options plan seen)
    (hsub : seen ⊆ seen') : Verified platform options plan seen' := by
  intro snapshot hmem
  obtain ⟨source, hsource, hgenuine⟩ := h snapshot hmem
  exact ⟨source, hsource, hgenuine.mono hsub⟩

theorem RpoHeld.mono {seen seen' : List RestoreEvent} (h : RpoHeld platform plan seen)
    (hsub : seen ⊆ seen') : RpoHeld platform plan seen' := by
  obtain ⟨captured, boundary, hcaptured, hmem, hwithin⟩ := h
  exact ⟨captured, boundary, hcaptured, hsub hmem, hwithin⟩

/-- A part that is guarded by what came before it goes on being so. -/
theorem Guarded.append {seen first second : List RestoreEvent}
    (h : Guarded platform options plan seen first)
    (h' : Guarded platform options plan (seen ++ first) second) :
    Guarded platform options plan seen (first ++ second) := by
  intro before e after heq hwrites
  rcases List.append_eq_append_iff.mp heq with ⟨tail, hbefore, hsecond⟩ | ⟨tail, hfirst, hafter⟩
  · rw [hbefore, ← List.append_assoc]
    exact h' tail e after hsecond hwrites
  · rcases tail with _ | ⟨e', tail⟩
    · have hsecond : second = [] ++ e :: after := hafter.symm
      have := h' [] e after hsecond hwrites
      rw [List.append_nil] at this hfirst
      rwa [hfirst] at this
    · obtain ⟨rfl, -⟩ := List.cons.inj hafter
      exact h before e tail hfirst hwrites

/-! ## Parts that write nothing -/

/-- Nothing is written. -/
def Silent (trace : List RestoreEvent) : Prop := ∀ e ∈ trace, Writes e.1 = false

theorem Silent.append {first second : List RestoreEvent} (h : Silent first) (h' : Silent second) :
    Silent (first ++ second) := fun e he => (List.mem_append.mp he).elim (h e) (h' e)

theorem Silent.createdIn {trace : List RestoreEvent} (h : Silent trace) : createdIn trace = [] := by
  refine List.filterMap_eq_nil_iff.mpr fun e he => ?_
  have := h e he
  rcases e with ⟨c, r⟩
  rcases c with _ | _ | _ | _ | _ | _ | _ | _ | _ | _ | _ <;> first | rfl | cases this

theorem Silent.guarded {trace : List RestoreEvent} (h : Silent trace) (seen : List RestoreEvent) :
    Guarded platform options plan seen trace := by
  intro before e after heq hwrites
  rw [h e (by simp [heq])] at hwrites
  cases hwrites

/-- A call that writes and removes nothing, and is read in the `try` if it is of the clock. -/
def isCalm : RestoreEvent → Bool
  | ⟨.now .failure, _⟩ | ⟨.now .cleanupStart, _⟩ | ⟨.now .cleanupEnd, _⟩ => false
  | ⟨.now _, _⟩ | ⟨.arrange _, _⟩ | ⟨.lstat _, _⟩ | ⟨.readFile _, _⟩ | ⟨.afterRestore _, _⟩ => true
  | _ => false

def Calm (trace : List RestoreEvent) : Prop := ∀ e ∈ trace, isCalm e = true

theorem Calm.append {first second : List RestoreEvent} (h : Calm first) (h' : Calm second) :
    Calm (first ++ second) := fun e he => (List.mem_append.mp he).elim (h e) (h' e)

theorem Calm.nil : Calm [] := by simp [Calm]

theorem Calm.cons {e : RestoreEvent} {trace : List RestoreEvent} (h : isCalm e = true)
    (h' : Calm trace) : Calm (e :: trace) := List.forall_mem_cons.mpr ⟨h, h'⟩

theorem Calm.contained {trace : List RestoreEvent} (h : Calm trace) : Contained trace := by
  intro e he
  have := h e he
  rcases e with ⟨c, r⟩
  rcases c with moment | _ | _ | _ | _ | _ | _ | _ | _ | _
  · rcases moment <;> rcases r with _ | _ | _ <;> simp_all [isCalm, Escapes]
  all_goals rfl

theorem Calm.removalsIn {trace : List RestoreEvent} (h : Calm trace) : removalsIn trace = [] := by
  refine List.filterMap_eq_nil_iff.mpr fun e he => ?_
  have := h e he
  rcases e with ⟨c, r⟩
  rcases c with _ | _ | _ | _ | _ | _ | _ | _ | _ | _ <;> first | rfl | cases this

theorem Calm.silent {trace : List RestoreEvent} (h : Calm trace) : Silent trace := by
  intro e he
  have := h e he
  rcases e with ⟨c, r⟩
  rcases c with _ | _ | _ | _ | _ | _ | _ | _ | _ | _ | _ <;> first | rfl | cases this

/-- What is thrown is truthy, unless something passes unseen. -/
def Honest {α : Type} (trace : List RestoreEvent) (outcome : Except Raised α) : Prop :=
  ∀ error, outcome = .error error → Noticed trace → error.truthy

/-- A program that writes nothing. -/
def IsCalm {α : Type} (p : RestoreProg (Except Raised α)) : Prop :=
  ∀ trace outcome, p.Runs trace outcome → Calm trace ∧ Honest trace outcome

/-- A part of the `try` that writes nothing and keeps the directory. -/
def IsQuiet {α : Type} (root : Option String) (p : Trying α) : Prop :=
  ∀ trace vars outcome, p.Runs trace (vars, outcome) →
    Calm trace ∧ vars.restoreRoot = root ∧ Honest trace outcome

theorem Honest.of_raises {α : Type} {trace : List RestoreEvent} {outcome : Except Raised α}
    (h : RaisesTruthy outcome) : Honest trace outcome := fun error herror _ => h error herror

/-- A call whose answer is thrown on. -/
theorem Honest.of_call {α : Type} {e : RestoreEvent} {rest : List RestoreEvent} {error : Raised}
    (h : PassesUnseen e = !error.truthy) :
    Honest (e :: rest) (.error error : Except Raised α) := by
  rintro error' ⟨⟩ hnoticed
  have := hnoticed e List.mem_cons_self
  simpa [h] using this

theorem Honest.prepend {α : Type} {first rest : List RestoreEvent} {outcome : Except Raised α}
    (h : Honest rest outcome) : Honest (first ++ rest) outcome :=
  fun error herror hnoticed => h error herror hnoticed.right

theorem Honest.append {α : Type} {first rest : List RestoreEvent} {outcome : Except Raised α}
    (h : Honest first outcome) : Honest (first ++ rest) outcome :=
  fun error herror hnoticed => h error herror hnoticed.left

theorem Honest.cons {α : Type} {e : RestoreEvent} {rest : List RestoreEvent}
    {outcome : Except Raised α} (h : Honest rest outcome) : Honest (e :: rest) outcome := by
  rw [← List.singleton_append]
  exact h.prepend

/-- A run of one part after the other. -/
theorem runs_next {α β : Type} {p : Trying α} {f : Vars → α → Trying β}
    {trace : List RestoreEvent} {vars : Vars} {outcome : Except Raised β}
    (h : (p.next f).Runs trace (vars, outcome)) :
    (∃ first rest vars' a, trace = first ++ rest ∧ p.Runs first (vars', .ok a) ∧
      (f vars' a).Runs rest (vars, outcome)) ∨
      ∃ error, p.Runs trace (vars, .error error) ∧ outcome = .error error := by
  obtain ⟨first, rest, ⟨vars', outcome'⟩, rfl, hfirst, hrest⟩ := Prog.runs_bind.mp h
  rcases outcome' with error | a
  · obtain ⟨rfl, ⟨⟩⟩ := Prog.runs_ret.mp hrest
    exact Or.inr ⟨error, by simpa using hfirst, rfl⟩
  · exact Or.inl ⟨first, rest, vars', a, rfl, hfirst, hrest⟩

namespace IsQuiet

variable {α β : Type} {root : Option String}

theorem next {p : Trying α} {f : Vars → α → Trying β} (hp : IsQuiet root p)
    (hf : ∀ vars a, vars.restoreRoot = root → IsQuiet root (f vars a)) : IsQuiet root (p.next f) := by
  intro trace vars outcome h
  rcases runs_next h with ⟨first, rest, vars', a, rfl, hfirst, hrest⟩ | ⟨error, herror, rfl⟩
  · obtain ⟨hcalm, hroot, -⟩ := hp _ _ _ hfirst
    obtain ⟨hcalm', hroot', hhonest⟩ := hf vars' a hroot _ _ _ hrest
    exact ⟨hcalm.append hcalm', hroot', hhonest.prepend⟩
  · obtain ⟨hcalm, hroot, hhonest⟩ := hp _ _ _ herror
    refine ⟨hcalm, hroot, ?_⟩
    rintro error' ⟨⟩ hnoticed
    exact hhonest error rfl hnoticed

theorem ret {vars : Vars} {outcome : Except Raised α} (hroot : vars.restoreRoot = root)
    (h : RaisesTruthy outcome) : IsQuiet root (.ret (vars, outcome) : Trying α) := by
  intro trace vars' outcome' hrun
  obtain ⟨rfl, ⟨⟩⟩ := Prog.runs_ret.mp hrun
  exact ⟨.nil, hroot, .of_raises h⟩

/-- A program without variables, and then what is made of it; what it throws is thrown on. -/
theorem bind {p : RestoreProg (Except Raised α)} {vars : Vars} {f : Except Raised α → Trying β}
    (hroot : vars.restoreRoot = root) (hp : IsCalm p)
    (herror : ∀ error, f (.error error) = .ret (vars, .error error))
    (hok : ∀ a, IsQuiet root (f (.ok a))) : IsQuiet root (p.bind f) := by
  intro trace vars' outcome h
  obtain ⟨first, rest, outcome', rfl, hfirst, hrest⟩ := Prog.runs_bind.mp h
  obtain ⟨hcalm, hhonest⟩ := hp _ _ hfirst
  rcases outcome' with error | a
  · rw [herror] at hrest
    obtain ⟨rfl, ⟨⟩⟩ := Prog.runs_ret.mp hrest
    refine ⟨by simpa using hcalm, hroot, ?_⟩
    rintro error' ⟨⟩ hnoticed
    exact hhonest error rfl hnoticed.left
  · obtain ⟨hcalm', hroot', hhonest'⟩ := hok a _ _ _ hrest
    exact ⟨hcalm.append hcalm', hroot', hhonest'.prepend⟩

end IsQuiet

/-- A reading of the clock inside the attempt is quiet. -/
theorem isQuiet_tryNow {vars : Vars} {root : Option String} (hroot : vars.restoreRoot = root)
    {moment : Moment} (hmoment : moment ≠ .failure ∧ moment ≠ .cleanupStart ∧ moment ≠ .cleanupEnd) :
    IsQuiet root (tryNow vars moment) := by
  intro trace vars' outcome h
  obtain ⟨answer, rest, rfl, hrest⟩ := Prog.runs_call.mp h
  obtain ⟨rfl, ⟨⟩⟩ := Prog.runs_ret.mp hrest
  refine ⟨.cons ?_ .nil, hroot, ?_⟩
  · rcases moment <;> simp_all [isCalm]
  · rintro error rfl
    refine (Honest.of_call ?_ : Honest _ (.error error : Except Raised TimeValue)) error rfl
    rcases moment <;> rfl

/-- Entering a step is quiet. -/
theorem isQuiet_enter {vars : Vars} {root : Option String} (hroot : vars.restoreRoot = root)
    (id : StateStepId) : IsQuiet root (enter plan vars id) := by
  unfold enter
  unfold findStep
  split
  · exact .ret hroot .ok
  · next herror =>
    split at herror
    · cases herror
    · cases herror
      exact .ret hroot .error

theorem completed_raises {step : StateRestoreStep} {startedAt finishedAt : TimeValue}
    {summary : String} : RaisesTruthy (completed step startedAt finishedAt summary) := by
  have htext : ∀ time, RaisesTruthy (isoText time) := by
    rintro (_ | time)
    · exact .error
    · exact .ok
  exact (htext _).bind fun _ => (htext _).bind fun _ => .ok

/-- Recording a step is quiet. -/
theorem isQuiet_pushCompleted {vars : Vars} {root : Option String} (hroot : vars.restoreRoot = root)
    (step : StateRestoreStep) (startedAt finishedAt : TimeValue) (summary : String) :
    IsQuiet root (pushCompleted vars step startedAt finishedAt summary) := by
  unfold pushCompleted
  split
  · exact .ret hroot .ok
  · next error herror =>
    refine .ret hroot ?_
    rintro error' ⟨⟩
    exact completed_raises error herror

/-! ## The sources -/

theorem record_raises {path : String} {value : Json} : RaisesTruthy (record path value) := by
  unfold record
  split
  · exact .ok
  · exact .error

theorem exactKeys_raises {value : Fields} {allowed : List String} {path : String} :
    RaisesTruthy (exactKeys value allowed path) := by
  unfold exactKeys
  split
  · exact .error
  · exact .ok

theorem parseRecord_raises {kind : StateKind} {value : Json} {index : Nat} :
    RaisesTruthy (parseRecord kind value index) := by
  refine record_raises.bind fun item => exactKeys_raises.bind fun _ => ?_
  split
  · exact .ok
  · exact .error

/-- Whatever a snapshot is refused for is an error that `if (failure)` sees. -/
theorem parseSnapshot_raises {bytes : List UInt8} {kind : StateKind} :
    RaisesTruthy (parseSnapshot platform bytes kind) := by
  unfold parseSnapshot
  split
  · exact .error
  · refine record_raises.bind fun root => exactKeys_raises.bind fun _ => ?_
    split
    · exact .error
    · split
      · exact .error
      · split
        · exact .error
        · split
          · refine (RaisesTruthy.mapM (fun item => parseRecord_raises) _).bind fun records => ?_
            split
            · exact .error
            · exact .ok
          · exact .error

theorem assertSnapshotIdentity_raises {payload : SnapshotPayload}
    {manifest : StateSnapshotManifest} : RaisesTruthy (assertSnapshotIdentity payload manifest) := by
  unfold assertSnapshotIdentity
  split
  · exact .ok
  · exact .error

theorem judgeStat_raises {stat : SnapshotStat} : RaisesTruthy (judgeStat stat) := by
  unfold judgeStat
  split
  · exact .error
  · split
    · exact .error
    · exact .ok

/-- A source that passes is a plain file of at most 64 KiB. -/
theorem judgeStat_ok {stat : SnapshotStat} (h : judgeStat stat = .ok ()) :
    stat.isFile = true ∧ stat.isSymbolicLink = false ∧ stat.size ≤ 65536 := by
  unfold judgeStat at h
  split at h
  · cases h
  · next hkind =>
    split at h
    · cases h
    · next hsize =>
      simp only [Bool.or_eq_true, Bool.not_eq_true', not_or, Bool.not_eq_true,
        Bool.not_eq_false] at hkind
      exact ⟨hkind.2, hkind.1, by omega⟩

theorem judgeSource_raises {manifest : StateSnapshotManifest} {bytes : List UInt8} :
    RaisesTruthy (judgeSource platform manifest bytes) := by
  unfold judgeSource
  dsimp only
  split
  · exact .error
  · exact parseSnapshot_raises.bind fun payload => assertSnapshotIdentity_raises.bind fun _ => .ok

/-- What `judgeSource` accepts has the digest and the identity of the manifest. -/
theorem judgeSource_ok {manifest : StateSnapshotManifest} {bytes : List UInt8}
    {source : ValidatedSnapshot} (h : judgeSource platform manifest bytes = .ok source) :
    source.manifest = manifest ∧ source.bytes = bytes ∧ platform.sha256 bytes = manifest.sha256 ∧
      source.sha256 = manifest.sha256 ∧
      parseSnapshot platform bytes manifest.stateKind = .ok source.payload ∧
      identityMatches source.payload manifest = true := by
  unfold judgeSource at h
  dsimp only at h
  split at h
  · cases h
  · next hdigest =>
    rcases hparse : parseSnapshot platform bytes manifest.stateKind with error | payload
    · rw [hparse] at h
      cases h
    · rw [hparse] at h
      rcases hidentity : assertSnapshotIdentity payload manifest with error | _
      · simp [bind, Except.bind, hidentity] at h
      · simp only [bind, Except.bind, hidentity, pure, Except.pure, Except.ok.injEq] at h
        subst h
        refine ⟨rfl, rfl, not_not.mp hdigest, not_not.mp hdigest, rfl, ?_⟩
        unfold assertSnapshotIdentity at hidentity
        split at hidentity
        · next hmatches => exact hmatches
        · cases hidentity

/-- A source that is accepted has been read, and its digest is that of its bytes. -/
theorem runs_validateSourceSnapshot {manifest : StateSnapshotManifest} {trace : List RestoreEvent}
    {outcome : Except Raised ValidatedSnapshot}
    (h : (validateSourceSnapshot platform options manifest).Runs trace outcome) :
    Calm trace ∧ Honest trace outcome ∧ ∀ source, outcome = .ok source →
      source.manifest = manifest ∧ Genuine platform options trace source := by
  obtain ⟨answer, rest, rfl, hrest⟩ := Prog.runs_call.mp h
  rcases answer with error | stat
  · obtain ⟨rfl, rfl⟩ := Prog.runs_ret.mp hrest
    exact ⟨.cons rfl .nil, .of_call rfl, by rintro source ⟨⟩⟩
  dsimp only at hrest
  split at hrest
  · next error herror =>
    obtain ⟨rfl, rfl⟩ := Prog.runs_ret.mp hrest
    refine ⟨.cons rfl .nil, .of_raises ?_, by rintro source ⟨⟩⟩
    rintro error' ⟨⟩
    exact judgeStat_raises error herror
  · next hstat =>
    obtain ⟨answer, last, rfl, hlast⟩ := Prog.runs_call.mp hrest
    rcases answer with error | bytes
    · obtain ⟨rfl, rfl⟩ := Prog.runs_ret.mp hlast
      exact ⟨.cons rfl (.cons rfl .nil), .cons (.of_call rfl), by rintro source ⟨⟩⟩
    · obtain ⟨rfl, rfl⟩ := Prog.runs_ret.mp hlast
      refine ⟨.cons rfl (.cons rfl .nil), .of_raises judgeSource_raises, fun source hsource => ?_⟩
      obtain ⟨hmanifest, hbytes, hdigest, hsha, hpayload, hidentity⟩ := judgeSource_ok hsource
      refine ⟨hmanifest, ⟨?_, ?_, ?_, ?_, ?_, ?_⟩⟩
      · rw [hmanifest]
        exact ⟨stat, by simp, judgeStat_ok hstat⟩
      · rw [hmanifest, hbytes]
        simp
      · rw [hmanifest, hbytes, hdigest]
      · rw [hmanifest, hsha]
      · rw [hmanifest, hbytes, hpayload]
      · rw [hmanifest, hidentity]

/-- What a promise has come to in a trace, for the snapshot in its place. -/
structure Came (platform : Platform) (options : RestoreOptions) (trace : List RestoreEvent)
    (snapshots : List StateSnapshotManifest) (entry : Nat × Except Raised ValidatedSnapshot) :
    Prop where
  honest : Honest trace entry.2
  genuine : ∀ source, entry.2 = .ok source → snapshots[entry.1]? = some source.manifest ∧
    Genuine platform options trace source

/-- Each promise in the order is one of the settled ones. -/
theorem runs_validateAll {snapshots : List StateSnapshotManifest} {order : List Nat}
    {settled settled' : Settled} {trace : List RestoreEvent}
    (h : (validateAll platform options snapshots order settled).Runs trace settled') :
    Calm trace ∧ ∃ fresh, settled' = fresh ++ settled ∧
      (∀ i ∈ order, i < snapshots.length → i ∈ fresh.map Prod.fst) ∧
      ∀ entry ∈ fresh, Came platform options trace snapshots entry := by
  induction order generalizing settled trace with
  | nil =>
    obtain ⟨rfl, rfl⟩ := Prog.runs_ret.mp h
    exact ⟨.nil, [], rfl, by simp, by simp⟩
  | cons i order ih =>
    rw [validateAll] at h
    split at h
    · next hnone =>
      obtain ⟨hcalm, fresh, hsettled, hkeys, hcame⟩ := ih h
      refine ⟨hcalm, fresh, hsettled, ?_, hcame⟩
      intro j hj hlt
      rcases List.mem_cons.mp hj with rfl | hj
      · exact absurd hlt (by simpa using hnone)
      · exact hkeys j hj hlt
    · next snapshot hsnapshot =>
      obtain ⟨first, rest, outcome, rfl, hfirst, hrest⟩ := Prog.runs_bind.mp h
      obtain ⟨hcalm, hhonest, hok⟩ := runs_validateSourceSnapshot hfirst
      obtain ⟨hcalm', fresh, rfl, hkeys, hcame⟩ := ih hrest
      refine ⟨hcalm.append hcalm', fresh ++ [(i, outcome)], by simp, ?_, ?_⟩
      · intro j hj hlt
        rcases List.mem_cons.mp hj with rfl | hj
        · simp
        · exact List.mem_map.mpr ((List.mem_map.mp (hkeys j hj hlt)).imp fun entry hentry =>
            ⟨List.mem_append_left _ hentry.1, hentry.2⟩)
      · intro entry hentry
        rcases List.mem_append.mp hentry with hentry | hentry
        · have hcame := hcame entry hentry
          refine ⟨hcame.honest.prepend, fun source hsource => ?_⟩
          obtain ⟨hat, hgenuine⟩ := hcame.genuine source hsource
          exact ⟨hat, hgenuine.mono (List.subset_append_right _ _)⟩
        · obtain rfl := List.mem_singleton.mp hentry
          refine ⟨fun error herror hnoticed => hhonest error herror hnoticed.left,
            fun source hsource => ?_⟩
          obtain ⟨hmanifest, hgenuine⟩ := hok source hsource
          exact ⟨by rw [hmanifest, hsnapshot], hgenuine.mono (List.subset_append_left _ _)⟩

theorem filterMap_range_getElem? {α : Type*} (l : List α) :
    (List.range l.length).filterMap (fun i => l[i]?) = l := by
  induction l with
  | nil => rfl
  | cons a l ih =>
    rw [List.length_cons, List.range_succ_eq_map, List.filterMap_cons, List.filterMap_map]
    exact congrArg (a :: ·) ih

/-- What is noted in a list of settled promises is what the promise at that place has come to. -/
theorem mem_of_lookup {settled : Settled} {i : Nat} {outcome : Except Raised ValidatedSnapshot}
    (h : settled.lookup i = some outcome) : (i, outcome) ∈ settled := by
  induction settled with
  | nil => cases h
  | cons entry settled ih =>
    rw [List.lookup_cons] at h
    split at h
    · next heq =>
      obtain rfl := Option.some.inj h
      obtain rfl := eq_of_beq heq
      exact List.mem_cons_self
    · exact List.mem_cons_of_mem _ (ih h)

/-- Once all promises are fulfilled, the results are those of the snapshots, in their places. -/
theorem promiseAll_ok {snapshots : List StateSnapshotManifest} {settled : Settled}
    {trace : List RestoreEvent} {sources : List ValidatedSnapshot}
    (hkeys : ∀ i < snapshots.length, i ∈ settled.map Prod.fst)
    (hcame : ∀ entry ∈ settled, Came platform options trace snapshots entry)
    (h : promiseAll snapshots.length settled = .ok sources) :
    sources.map (·.manifest) = snapshots ∧
      ∀ source ∈ sources, Genuine platform options trace source := by
  unfold promiseAll at h
  split at h
  · cases h
  · next hnone =>
    rw [List.findSome?_eq_none_iff] at hnone
    obtain rfl := Except.ok.inj h
    have hfound : ∀ i < snapshots.length, ∃ source, settled.lookup i = some (.ok source) ∧
        snapshots[i]? = some source.manifest := by
      intro i hi
      obtain ⟨outcome, houtcome⟩ : ∃ outcome, settled.lookup i = some outcome := by
        rw [← Option.isSome_iff_exists, List.lookup_isSome_iff]
        obtain ⟨entry, hentry, rfl⟩ := List.mem_map.mp (hkeys i hi)
        exact ⟨entry, hentry, by simp⟩
      have hmem := mem_of_lookup houtcome
      rcases outcome with error | source
      · have := hnone _ (List.mem_reverse.mpr hmem)
        cases this
      · exact ⟨source, houtcome, ((hcame _ hmem).genuine source rfl).1⟩
    constructor
    · rw [List.map_filterMap]
      conv_rhs => rw [← filterMap_range_getElem? snapshots]
      refine List.filterMap_congr fun i hi => ?_
      obtain ⟨source, hlookup, hat⟩ := hfound i (List.mem_range.mp hi)
      simp [hlookup, hat]
    · intro source hsource
      obtain ⟨i, hi, hsource⟩ := List.mem_filterMap.mp hsource
      obtain ⟨source', hlookup, -⟩ := hfound i (List.mem_range.mp hi)
      rw [hlookup] at hsource
      obtain rfl := Option.some.inj hsource
      exact ((hcame _ (mem_of_lookup hlookup)).genuine _ rfl).2

/-! ## The parts that succeed -/

theorem runs_next_ok {α β : Type} {p : Trying α} {f : Vars → α → Trying β}
    {trace : List RestoreEvent} {vars : Vars} {b : β}
    (h : (p.next f).Runs trace (vars, .ok b)) :
    ∃ first rest vars' a, trace = first ++ rest ∧ p.Runs first (vars', .ok a) ∧
      (f vars' a).Runs rest (vars, .ok b) := by
  rcases runs_next h with hok | ⟨error, -, ⟨⟩⟩
  exact hok

theorem findStep_ok {id : StateStepId} {step : StateRestoreStep} (h : findStep plan id = .ok step) :
    step.id = id := by
  unfold findStep at h
  split at h
  · next step' hfind =>
    obtain rfl := Except.ok.inj h
    simpa using List.find?_some hfind
  · cases h

/-- A step that is entered is the active one. -/
theorem runs_enter_ok {vars vars' : Vars} {id : StateStepId} {step : StateRestoreStep}
    {trace : List RestoreEvent} (h : (enter plan vars id).Runs trace (vars', .ok step)) :
    trace = [] ∧ step.id = id ∧ vars' = { vars with activeStep := some step } := by
  unfold enter at h
  split at h
  · next hstep =>
    obtain ⟨rfl, ⟨⟩⟩ := Prog.runs_ret.mp h
    exact ⟨rfl, findStep_ok hstep, rfl⟩
  · obtain ⟨-, ⟨⟩⟩ := Prog.runs_ret.mp h

theorem runs_tryNow_ok {vars vars' : Vars} {moment : Moment} {time : TimeValue}
    {trace : List RestoreEvent} (h : (tryNow vars moment).Runs trace (vars', .ok time)) :
    trace = [⟨.now moment, .ok time⟩] ∧ vars' = vars := by
  obtain ⟨answer, rest, rfl, hrest⟩ := Prog.runs_call.mp h
  obtain ⟨rfl, hpair⟩ := Prog.runs_ret.mp hrest
  obtain ⟨rfl, rfl⟩ := Prod.mk.inj hpair
  exact ⟨rfl, rfl⟩

/-- The ids of the records, with what they say. -/
def notedIn (records : List StateRestoreStepEvidence) : List (StateStepId × RecordStatus) :=
  records.map fun record => (record.id, record.status)

theorem completed_ok {step : StateRestoreStep} {startedAt finishedAt : TimeValue}
    {summary : String} {record : StateRestoreStepEvidence}
    (h : completed step startedAt finishedAt summary = .ok record) :
    startedAt ≠ none ∧ finishedAt ≠ none ∧ record.id = step.id ∧ record.status = .succeeded := by
  rcases startedAt with _ | start <;> rcases finishedAt with _ | finish <;>
    simp [completed, isoText, bind, Except.bind, pure, Except.pure] at h
  subst h
  simp

/-- A step that was recorded has succeeded, between two valid dates. -/
theorem runs_pushCompleted_ok {vars vars' : Vars} {step : StateRestoreStep}
    {startedAt finishedAt : TimeValue} {summary : String} {trace : List RestoreEvent}
    (h : (pushCompleted vars step startedAt finishedAt summary).Runs trace (vars', .ok ())) :
    trace = [] ∧ startedAt ≠ none ∧ finishedAt ≠ none ∧
      ∃ records, vars' = { vars with records := vars.records ++ records } ∧
        notedIn records = [(step.id, .succeeded)] := by
  unfold pushCompleted at h
  split at h
  · next record hrecord =>
    obtain ⟨rfl, ⟨⟩⟩ := Prog.runs_ret.mp h
    obtain ⟨hstart, hfinish, hid, hstatus⟩ := completed_ok hrecord
    exact ⟨rfl, hstart, hfinish, [record], rfl, by simp [notedIn, hid, hstatus]⟩
  · obtain ⟨-, ⟨⟩⟩ := Prog.runs_ret.mp h

/-! ## The preflight -/

/-- The sources are read, and all are what the manifest says, or something is thrown. -/
theorem runs_sources {β : Type} {vars vars' : Vars} {outcome : Except Raised β}
    {f : Vars → List ValidatedSnapshot → Trying β} {trace : List RestoreEvent}
    {snapshots : List StateSnapshotManifest}
    (h : (Prog.call (.arrange snapshots.length) fun order =>
      (validateAll platform options snapshots order.1 []).bind fun settled =>
        (tryPure vars (promiseAll snapshots.length settled)).next f : Trying β).Runs trace
          (vars', outcome)) :
    ∃ first rest, trace = first ++ rest ∧ Calm first ∧
      ((∃ error, outcome = .error error ∧ rest = [] ∧ vars' = vars ∧ Honest first outcome) ∨
        ∃ sources : List ValidatedSnapshot, sources.map (·.manifest) = snapshots ∧
          (∀ source ∈ sources, Genuine platform options first source) ∧
          (f vars sources).Runs rest (vars', outcome)) := by
  obtain ⟨order, trace, rfl, hbody⟩ := Prog.runs_call.mp h
  obtain ⟨first, rest, settled, rfl, hfirst, hrest⟩ := Prog.runs_bind.mp hbody
  obtain ⟨hcalm, fresh, hfresh, hkeys, hcame⟩ := runs_validateAll hfirst
  obtain rfl : settled = fresh := by simpa using hfresh
  have hcame : ∀ entry ∈ settled, Came platform options
      (⟨.arrange snapshots.length, order⟩ :: first) snapshots entry := by
    intro entry hentry
    have := hcame entry hentry
    refine ⟨this.honest.cons, fun source hsource => ?_⟩
    obtain ⟨hat, hgenuine⟩ := this.genuine source hsource
    exact ⟨hat, hgenuine.mono (List.subset_cons_self _ _)⟩
  refine ⟨_ :: first, rest, rfl, .cons rfl hcalm, ?_⟩
  rcases hall : promiseAll snapshots.length settled with error | sources
  · rw [hall] at hrest
    obtain ⟨rfl, ⟨⟩⟩ := Prog.runs_ret.mp hrest
    refine Or.inl ⟨error, rfl, rfl, rfl, ?_⟩
    unfold promiseAll at hall
    split at hall
    · next error' hfound =>
      obtain ⟨entry, hentry, hrejected⟩ := List.exists_of_findSome?_eq_some hfound
      obtain rfl := Except.error.inj hall
      rintro error ⟨⟩ hnoticed
      rcases entry with ⟨i, error | source⟩
      · obtain rfl := Option.some.inj hrejected
        exact (hcame _ (List.mem_reverse.mp hentry)).honest _ rfl hnoticed
      · cases hrejected
    · cases hall
  · rw [hall] at hrest
    have hkeys : ∀ i < snapshots.length, i ∈ settled.map Prod.fst := fun i hi =>
      hkeys i (order.2.mem_iff.mpr (List.mem_range.mpr hi)) hi
    exact Or.inr ⟨sources, (promiseAll_ok hkeys hcame hall).1, (promiseAll_ok hkeys hcame hall).2,
      hrest⟩

/-- The sources are validated quietly, in the order in which their promises settle. -/
theorem IsQuiet.sources {β : Type} {vars : Vars} {root : Option String}
    {f : Vars → List ValidatedSnapshot → Trying β} {snapshots : List StateSnapshotManifest}
    (hroot : vars.restoreRoot = root) (hf : ∀ sources, IsQuiet root (f vars sources)) :
    IsQuiet root (Prog.call (.arrange snapshots.length) fun order =>
      (validateAll platform options snapshots order.1 []).bind fun settled =>
        (tryPure vars (promiseAll snapshots.length settled)).next f : Trying β) := by
  intro trace vars' outcome h
  obtain ⟨first, rest, rfl, hcalm, ⟨error, rfl, rfl, rfl, hhonest⟩ | ⟨sources, -, -, hrest⟩⟩ :=
    runs_sources h
  · exact ⟨hcalm.append .nil, hroot, hhonest.append⟩
  · obtain ⟨hcalm', hroot', hhonest⟩ := hf sources _ _ _ hrest
    exact ⟨hcalm.append hcalm', hroot', hhonest.prepend⟩

/-- The preflight is quiet. -/
theorem isQuiet_preflight {vars : Vars} {root : Option String} (hroot : vars.restoreRoot = root) :
    IsQuiet root (preflight platform options plan vars) := by
  refine (isQuiet_enter hroot _).next fun vars step hroot =>
    (isQuiet_tryNow hroot (by simp)).next fun vars startedAt hroot =>
      .sources hroot fun sources => (isQuiet_tryNow hroot (by simp)).next fun vars boundary hroot => ?_
  dsimp only
  split
  · exact .ret hroot .error
  · exact (isQuiet_pushCompleted (by exact hroot) _ _ _ _).next fun vars _ hroot => .ret hroot .ok

/-- What is known when the restore begins. -/
structure Checked (platform : Platform) (options : RestoreOptions) (plan : StateRestorePlan)
    (trace : List RestoreEvent) (sources : List ValidatedSnapshot) (boundary : TimeValue) :
    Prop where
  manifests : sources.map (·.manifest) = plan.manifest.snapshots
  genuine : ∀ source ∈ sources, Genuine platform options trace source
  boundary : ∃ start : Int, boundary = some start ∧
    (⟨.now .boundary, .ok (some start)⟩ : RestoreEvent) ∈ trace ∧
    ∀ captured, platform.dateMs plan.manifest.capturedAt = some captured →
      0 ≤ start - captured ∧ start - captured ≤ 86400000

theorem Checked.verified {trace : List RestoreEvent} {sources : List ValidatedSnapshot}
    {boundary : TimeValue} (h : Checked platform options plan trace sources boundary) :
    Verified platform options plan trace := by
  intro snapshot hsnapshot
  rw [← h.manifests] at hsnapshot
  obtain ⟨source, hsource, rfl⟩ := List.mem_map.mp hsnapshot
  exact ⟨source, rfl, h.genuine source hsource⟩

theorem Checked.rpoHeld {trace : List RestoreEvent} {sources : List ValidatedSnapshot}
    {boundary : TimeValue} (h : Checked platform options plan trace sources boundary)
    (hcaptured : platform.dateMs plan.manifest.capturedAt ≠ none) : RpoHeld platform plan trace := by
  obtain ⟨captured, hcaptured⟩ := Option.ne_none_iff_exists'.mp hcaptured
  obtain ⟨start, -, hmem, hwithin⟩ := h.boundary
  exact ⟨captured, start, hcaptured, hmem, hwithin captured hcaptured⟩

/-- A preflight that succeeds has checked the sources and the RPO, and records itself. -/
theorem runs_preflight_ok {vars vars' : Vars} {found : List ValidatedSnapshot × TimeValue}
    {trace : List RestoreEvent}
    (h : (preflight platform options plan vars).Runs trace (vars', .ok found)) :
    Checked platform options plan trace found.1 found.2 ∧ vars'.states = vars.states ∧
      notedIn vars'.records = notedIn vars.records ++ [(.snapshotPreflight, .succeeded)] := by
  obtain ⟨_, rest₁, vars₁, step, rfl, henter, hrest₁⟩ := runs_next_ok h
  obtain ⟨rfl, hstep, rfl⟩ := runs_enter_ok henter
  obtain ⟨_, rest₂, vars₂, startedAt, rfl, hnow, hrest₂⟩ := runs_next_ok hrest₁
  obtain ⟨rfl, rfl⟩ := runs_tryNow_ok hnow
  obtain ⟨first, rest₃, rfl, -, ⟨_, ⟨⟩, -⟩ | ⟨sources, hmanifests, hgenuine, hrest₃⟩⟩ :=
    runs_sources hrest₂
  obtain ⟨_, rest₄, vars₃, boundary, rfl, hnow, hrest₄⟩ := runs_next_ok hrest₃
  obtain ⟨rfl, rfl⟩ := runs_tryNow_ok hnow
  dsimp only at hrest₄
  split at hrest₄
  · obtain ⟨-, ⟨⟩⟩ := Prog.runs_ret.mp hrest₄
  · next hwithin =>
    obtain ⟨_, rest₅, vars₄, _, rfl, hpush, hrest₅⟩ := runs_next_ok hrest₄
    obtain ⟨rfl, -, hdated, records, rfl, hnoted⟩ := runs_pushCompleted_ok hpush
    obtain ⟨rfl, ⟨⟩⟩ := Prog.runs_ret.mp hrest₅
    obtain ⟨start, rfl⟩ := Option.ne_none_iff_exists'.mp hdated
    refine ⟨⟨hmanifests, fun source hsource => (hgenuine source hsource).mono ?_, start, rfl, ?_,
      fun captured hcaptured => ?_⟩, rfl, ?_⟩
    · intro e he
      simp [he]
    · simp
    · simp only [hcaptured, elapsed, outsideDay, Option.bind_some, Option.map_some,
        Bool.or_eq_true, decide_eq_true_eq, not_or, not_lt] at hwithin
      omega
    · simp [notedIn, ← hstep] at hnoted ⊢
      exact hnoted

/-! ## The restore -/

/-- All calls write, and all of them under the directory. -/
def Under (root : String) (trace : List RestoreEvent) : Prop :=
  ∀ e ∈ trace, ∃ path, writtenBy e.1 = some path ∧ (root ++ "/").toList <+: path.toList

theorem Under.createdIn {root : String} {trace : List RestoreEvent} (h : Under root trace) :
    createdIn trace = [] := by
  refine List.filterMap_eq_nil_iff.mpr fun e he => ?_
  obtain ⟨path, hpath, -⟩ := h e he
  rcases e with ⟨c, r⟩
  rcases c with _ | _ | _ | _ | _ | _ | _ | _ | _ | _ | _ <;> first | rfl | cases hpath

theorem Under.removalsIn {root : String} {trace : List RestoreEvent} (h : Under root trace) :
    removalsIn trace = [] := by
  refine List.filterMap_eq_nil_iff.mpr fun e he => ?_
  obtain ⟨path, hpath, -⟩ := h e he
  rcases e with ⟨c, r⟩
  rcases c with _ | _ | _ | _ | _ | _ | _ | _ | _ | _ | _ <;> first | rfl | cases hpath

theorem Under.contained {root : String} {trace : List RestoreEvent} (h : Under root trace) :
    Contained trace := by
  intro e he
  obtain ⟨path, hpath, -⟩ := h e he
  rcases e with ⟨c, r⟩
  rcases c with _ | _ | _ | _ | _ | _ | _ | _ | _ | _ | _ <;> first | rfl | cases hpath

/-- What is written below the directory is guarded by what was verified before it. -/
theorem Under.guarded {root : String} {seen trace : List RestoreEvent} (h : Under root trace)
    (hverified : Verified platform options plan seen) (hrpo : RpoHeld platform plan seen)
    (hcreated : root ∈ StateRestore.createdIn seen) : Guarded platform options plan seen trace := by
  rintro before e after rfl -
  have hsub : seen ⊆ seen ++ before := List.subset_append_left _ _
  refine ⟨hverified.mono hsub, hrpo.mono hsub, fun path hpath => ⟨root, ?_, ?_⟩⟩
  · simp [hcreated]
  · obtain ⟨path', hpath', hunder⟩ := h e (by simp)
    obtain rfl : path' = path := Option.some.inj (hpath'.symm.trans hpath)
    exact hunder

theorem Under.cons {root path : String} {e : RestoreEvent} {trace : List RestoreEvent}
    (hpath : writtenBy e.1 = some path) (hunder : (root ++ "/").toList <+: path.toList)
    (h : Under root trace) : Under root (e :: trace) :=
  List.forall_mem_cons.mpr ⟨⟨path, hpath, hunder⟩, h⟩

theorem stateDirectory_under (root : String) (kind : StateKind) :
    (root ++ "/").toList <+: (stateDirectory root kind).toList :=
  ⟨kind.text.toList, by simp [stateDirectory]⟩

theorem stateFile_under (root : String) (kind : StateKind) :
    (root ++ "/").toList <+: (stateFile root kind).toList :=
  (stateDirectory_under root kind).trans ⟨"/state.json".toList, by simp [stateFile]⟩

/-- The files are written below the directory only. -/
theorem runs_restoreFiles {root : String} {sources : List ValidatedSnapshot}
    {trace : List RestoreEvent} {outcome : Except Raised Unit}
    (h : (restoreFiles root sources).Runs trace outcome) :
    Under root trace ∧ Honest trace outcome := by
  have hempty : Under root [] := by simp [Under]
  induction sources generalizing trace with
  | nil =>
    obtain ⟨rfl, rfl⟩ := Prog.runs_ret.mp h
    exact ⟨hempty, .of_raises .ok⟩
  | cons source sources ih =>
    have hdirectory := stateDirectory_under root source.manifest.stateKind
    have hfile := stateFile_under root source.manifest.stateKind
    -- the three calls of a snapshot, each of which may be the last
    obtain ⟨answer, rest₁, rfl, hrest₁⟩ := Prog.runs_call.mp h
    rcases answer with error | _
    · obtain ⟨rfl, rfl⟩ := Prog.runs_ret.mp hrest₁
      exact ⟨.cons rfl hdirectory hempty, .of_call rfl⟩
    obtain ⟨answer, rest₂, rfl, hrest₂⟩ := Prog.runs_call.mp hrest₁
    rcases answer with error | _
    · obtain ⟨rfl, rfl⟩ := Prog.runs_ret.mp hrest₂
      exact ⟨.cons rfl hdirectory (.cons rfl hfile hempty), .cons (.of_call rfl)⟩
    obtain ⟨answer, rest₃, rfl, hrest₃⟩ := Prog.runs_call.mp hrest₂
    rcases answer with error | _
    · obtain ⟨rfl, rfl⟩ := Prog.runs_ret.mp hrest₃
      exact ⟨.cons rfl hdirectory (.cons rfl hfile (.cons rfl hfile hempty)),
        .cons (.cons (.of_call rfl))⟩
    · obtain ⟨hunder, hhonest⟩ := ih hrest₃
      exact ⟨.cons rfl hdirectory (.cons rfl hfile (.cons rfl hfile hunder)), hhonest.cons.cons.cons⟩

/-! ## What the `try` leaves behind -/

/-- The trace of the `try` so far: what it has created is in the variable. -/
structure Tried {α : Type} (platform : Platform) (options : RestoreOptions)
    (plan : StateRestorePlan) (trace : List RestoreEvent) (vars : Vars)
    (outcome : Except Raised α) : Prop where
  created : createdIn trace = vars.restoreRoot.toList
  removed : removalsIn trace = []
  contained : Contained trace
  guarded : platform.dateMs plan.manifest.capturedAt ≠ none → Guarded platform options plan [] trace
  honest : Honest trace outcome

namespace Tried

variable {α β : Type} {first rest : List RestoreEvent} {vars vars' : Vars}

theorem of_calm {outcome : Except Raised α} (hcalm : Calm first) (hroot : vars.restoreRoot = none)
    (hhonest : Honest first outcome) : Tried platform options plan first vars outcome where
  created := by rw [hcalm.silent.createdIn, hroot]; rfl
  removed := hcalm.removalsIn
  contained := hcalm.contained
  guarded _ := hcalm.silent.guarded _
  honest := hhonest

/-- A part that writes nothing comes after it. -/
theorem andCalm {a : α} {outcome : Except Raised β}
    (h : Tried platform options plan first vars (.ok a)) (hcalm : Calm rest)
    (hroot : vars'.restoreRoot = vars.restoreRoot) (hhonest : Honest rest outcome) :
    Tried platform options plan (first ++ rest) vars' outcome where
  created := by rw [createdIn_append, h.created, hcalm.silent.createdIn, hroot, List.append_nil]
  removed := by rw [removalsIn_append, h.removed, hcalm.removalsIn, List.append_nil]
  contained := h.contained.append hcalm.contained
  guarded hcaptured := (h.guarded hcaptured).append (hcalm.silent.guarded _)
  honest := hhonest.prepend

/-- Whatever the creation of the directory comes to, the sources are verified before it. -/
theorem guarded_mkdtemp {a : α} {sources : List ValidatedSnapshot} {boundary : TimeValue}
    {name : String} {answer : Except Raised { path : String // path ≠ "" }}
    (h : Tried platform options plan first vars (.ok a))
    (hchecked : Checked platform options plan first sources boundary)
    (hcaptured : platform.dateMs plan.manifest.capturedAt ≠ none) :
    Guarded platform options plan [] (first ++ [⟨.mkdtemp name, answer⟩]) := by
  refine (h.guarded hcaptured).append fun before e after heq _ => ?_
  obtain ⟨rfl, rfl⟩ : before = [] ∧ e = ⟨.mkdtemp name, answer⟩ := by
    rcases before with _ | ⟨e', before⟩
    · exact ⟨rfl, (List.cons.inj heq).1.symm⟩
    · simp at heq
  exact ⟨by simpa using hchecked.verified, by simpa using hchecked.rpoHeld hcaptured,
    by rintro path ⟨⟩⟩

/-- The directory cannot be created. -/
theorem fail {a : α} {sources : List ValidatedSnapshot} {boundary : TimeValue} {name : String}
    {error : Raised} (h : Tried platform options plan first vars (.ok a))
    (hchecked : Checked platform options plan first sources boundary)
    (hroot : vars'.restoreRoot = vars.restoreRoot) :
    Tried platform options plan (first ++ [⟨.mkdtemp name, .error error⟩]) vars'
      (.error error : Except Raised β) where
  created := by
    rw [createdIn_append, h.created, hroot]
    exact List.append_nil _
  removed := by
    rw [removalsIn_append, h.removed]
    rfl
  contained := h.contained.append (by simp [Contained, Escapes])
  guarded := h.guarded_mkdtemp hchecked
  honest := (Honest.of_call rfl).prepend

/-- The directory is created, and files are written in it. -/
theorem create {name : String} {root : { path : String // path ≠ "" }} {under : List RestoreEvent}
    {a : α} {outcome : Except Raised β} {sources : List ValidatedSnapshot} {boundary : TimeValue}
    (h : Tried platform options plan first vars (.ok a)) (hroot : vars.restoreRoot = none)
    (hchecked : Checked platform options plan first sources boundary) (hunder : Under root.1 under)
    (hroot' : vars'.restoreRoot = some root.1) (hhonest : Honest under outcome) :
    Tried platform options plan (first ++ ⟨.mkdtemp name, .ok root⟩ :: under) vars' outcome where
  created := by
    rw [createdIn_append, h.created, hroot, hroot']
    exact congrArg (root.1 :: ·) hunder.createdIn
  removed := by
    rw [removalsIn_append, h.removed]
    exact hunder.removalsIn
  contained := h.contained.append (List.forall_mem_cons.mpr ⟨rfl, hunder.contained⟩)
  guarded hcaptured := by
    rw [← List.singleton_append, ← List.append_assoc]
    have hsub : first ⊆ [] ++ (first ++ [⟨.mkdtemp name, .ok root⟩]) := by simp
    refine (h.guarded_mkdtemp hchecked hcaptured).append (hunder.guarded ?_ ?_ ?_)
    · exact hchecked.verified.mono hsub
    · exact (hchecked.rpoHeld hcaptured).mono hsub
    · simp [StateRestore.createdIn]
  honest := hhonest.cons.prepend

end Tried

/-- What is left of the restore once the files are there. -/
theorem isQuiet_restoreEnd {vars : Vars} {root : Option String} (hroot : vars.restoreRoot = root)
    (step : StateRestoreStep) (boundary : TimeValue) (directory : String) :
    IsQuiet root ((tryNow vars .restoreEnd).next fun vars finishedAt =>
      (pushCompleted vars step boundary finishedAt "three synthetic states restored").next
        fun vars _ => .ret (vars, .ok directory)) :=
  (isQuiet_tryNow hroot (by simp)).next fun _ _ hroot =>
    (isQuiet_pushCompleted hroot _ _ _ _).next fun _ _ hroot => .ret hroot .ok

/-- After the preflight, the restore creates the directory, or nothing. -/
theorem runs_restore {vars vars' : Vars} {found : List ValidatedSnapshot × TimeValue}
    {first trace : List RestoreEvent} {outcome : Except Raised String}
    (h : (restore plan vars found.1 found.2).Runs trace (vars', outcome))
    (htried : Tried platform options plan first vars (.ok found)) (hroot : vars.restoreRoot = none)
    (hchecked : Checked platform options plan first found.1 found.2) :
    Tried platform options plan (first ++ trace) vars' outcome ∧
      ∀ root, outcome = .ok root → vars'.restoreRoot = some root ∧ vars'.states = vars.states ∧
        notedIn vars'.records = notedIn vars.records ++ [(.restore, .succeeded)] := by
  rcases runs_next h with ⟨_, rest₁, vars₁, step, rfl, henter, hrest₁⟩ | ⟨error, hthrown, rfl⟩
  · obtain ⟨rfl, hstep, rfl⟩ := runs_enter_ok henter
    rw [List.nil_append]
    obtain ⟨answer, rest₂, rfl, hrest₂⟩ := Prog.runs_call.mp hrest₁
    rcases answer with error | root
    · obtain ⟨rfl, ⟨⟩⟩ := Prog.runs_ret.mp hrest₂
      exact ⟨htried.fail hchecked rfl, by rintro root ⟨⟩⟩
    · obtain ⟨under, rest₃, outcome', rfl, hfiles, hrest₃⟩ := Prog.runs_bind.mp hrest₂
      obtain ⟨hunder, hhonest⟩ := runs_restoreFiles hfiles
      rcases outcome' with error | _
      · obtain ⟨rfl, ⟨⟩⟩ := Prog.runs_ret.mp hrest₃
        rw [List.append_nil]
        refine ⟨htried.create hroot hchecked hunder rfl ?_, by rintro root ⟨⟩⟩
        rintro error' ⟨⟩ hnoticed
        exact hhonest error rfl hnoticed
      · -- the directory is there; what is left only reads the clock
        have hcreated : Tried platform options plan
            (first ++ (⟨.mkdtemp (plan.restoreName ++ "-"), .ok root⟩ : RestoreEvent) :: under)
            { vars with activeStep := some step, restoreRoot := some root.1 }
            (.ok () : Except Raised Unit) := htried.create hroot hchecked hunder rfl hhonest
        obtain ⟨hcalm, hroot', hhonest'⟩ := isQuiet_restoreEnd (by rfl) _ _ _ _ _ _ hrest₃
        rw [← List.cons_append, ← List.append_assoc]
        refine ⟨hcreated.andCalm hcalm hroot' hhonest', ?_⟩
        rintro root' rfl
        obtain ⟨_, rest₄, vars₂, finishedAt, rfl, hnow, hrest₄⟩ := runs_next_ok hrest₃
        obtain ⟨rfl, rfl⟩ := runs_tryNow_ok hnow
        obtain ⟨_, rest₅, vars₃, _, rfl, hpush, hrest₅⟩ := runs_next_ok hrest₄
        obtain ⟨rfl, -, -, records, rfl, hnoted⟩ := runs_pushCompleted_ok hpush
        obtain ⟨rfl, ⟨⟩⟩ := Prog.runs_ret.mp hrest₅
        refine ⟨rfl, rfl, ?_⟩
        rw [← hstep, ← hnoted]
        simp [notedIn]
  · obtain ⟨hcalm, hroot', hhonest⟩ := isQuiet_enter hroot _ _ _ _ hthrown
    refine ⟨htried.andCalm hcalm (hroot'.trans hroot.symm) ?_, by rintro root ⟨⟩⟩
    rintro error' ⟨⟩ hnoticed
    exact hhonest error rfl hnoticed

/-! ## The startup gate -/

theorem judgeRestoredStat_raises {stat : SnapshotStat} : RaisesTruthy (judgeRestoredStat stat) := by
  unfold judgeRestoredStat
  split
  · exact .error
  · split
    · exact .error
    · exact .ok

/-- A restored file that passes is a plain file with mode 0600. -/
theorem judgeRestoredStat_ok {stat : SnapshotStat} (h : judgeRestoredStat stat = .ok ()) :
    stat.isFile = true ∧ stat.isSymbolicLink = false ∧ stat.mode &&& 0o777 = 0o600 := by
  unfold judgeRestoredStat at h
  split at h
  · cases h
  · next hkind =>
    split at h
    · cases h
    · next hmode =>
      simp only [Bool.or_eq_true, Bool.not_eq_true', not_or, Bool.not_eq_true,
        Bool.not_eq_false] at hkind
      exact ⟨hkind.2, hkind.1, not_not.mp hmode⟩

theorem judgeRestored_raises {source : ValidatedSnapshot} {bytes : List UInt8} :
    RaisesTruthy (judgeRestored platform source bytes) := by
  refine parseSnapshot_raises.bind fun payload => assertSnapshotIdentity_raises.bind fun _ => ?_
  split
  · exact .error
  · exact .ok

/-- A restored file that passes has the digest of its source. -/
theorem judgeRestored_ok {source : ValidatedSnapshot} {bytes : List UInt8}
    {state : StateRestoreStateEvidence} (h : judgeRestored platform source bytes = .ok state) :
    platform.sha256 bytes = source.sha256 := by
  unfold judgeRestored at h
  rcases hparse : parseSnapshot platform bytes source.manifest.stateKind with error | payload
  · rw [hparse] at h
    cases h
  · rw [hparse] at h
    rcases hidentity : assertSnapshotIdentity payload source.manifest with error | _
    · simp [bind, Except.bind, hidentity] at h
    · simp only [bind, Except.bind, hidentity] at h
      split at h
      · cases h
      · next hdigest => exact not_not.mp hdigest

/-- A restored file is read back, and has the digest that the manifest names. -/
theorem runs_validateRestoredSnapshot {source : ValidatedSnapshot} {root : String}
    {trace : List RestoreEvent} {outcome : Except Raised StateRestoreStateEvidence}
    (h : (validateRestoredSnapshot platform source root).Runs trace outcome) :
    (Calm trace ∧ Honest trace outcome) ∧ ∀ state, outcome = .ok state →
      source.sha256 = source.manifest.sha256 → Restored platform trace root source.manifest := by
  obtain ⟨answer, rest, rfl, hrest⟩ := Prog.runs_call.mp h
  rcases answer with error | stat
  · obtain ⟨rfl, rfl⟩ := Prog.runs_ret.mp hrest
    exact ⟨⟨.cons rfl .nil, .of_call rfl⟩, by rintro state ⟨⟩⟩
  dsimp only at hrest
  split at hrest
  · next error herror =>
    obtain ⟨rfl, rfl⟩ := Prog.runs_ret.mp hrest
    refine ⟨⟨.cons rfl .nil, .of_raises ?_⟩, by rintro state ⟨⟩⟩
    rintro error' ⟨⟩
    exact judgeRestoredStat_raises error herror
  · next hstat =>
    obtain ⟨answer, last, rfl, hlast⟩ := Prog.runs_call.mp hrest
    rcases answer with error | bytes
    · obtain ⟨rfl, rfl⟩ := Prog.runs_ret.mp hlast
      exact ⟨⟨.cons rfl (.cons rfl .nil), .cons (.of_call rfl)⟩, by rintro state ⟨⟩⟩
    · obtain ⟨rfl, rfl⟩ := Prog.runs_ret.mp hlast
      refine ⟨⟨.cons rfl (.cons rfl .nil), .of_raises judgeRestored_raises⟩, ?_⟩
      intro state hstate hsource
      obtain ⟨hfile, hlink, hmode⟩ := judgeRestoredStat_ok hstat
      exact ⟨stat, bytes, by simp, hfile, hlink, hmode, by simp,
        (judgeRestored_ok hstate).trans hsource⟩

/-- The restored files are validated quietly. -/
theorem isQuiet_validateRestored {vars : Vars} {directory : Option String}
    (hroot : vars.restoreRoot = directory) (root : String) (sources : List ValidatedSnapshot) :
    IsQuiet directory (validateRestored platform root vars sources) := by
  induction sources generalizing vars with
  | nil => exact .ret hroot .ok
  | cons source sources ih =>
    have hcalm : IsCalm (validateRestoredSnapshot platform source root) := fun trace outcome h =>
      (runs_validateRestoredSnapshot h).1
    refine IsQuiet.bind hroot hcalm (fun error => rfl) fun state => ?_
    exact ih hroot

theorem Restored.mono {seen seen' : List RestoreEvent} {root : String}
    {snapshot : StateSnapshotManifest} (h : Restored platform seen root snapshot)
    (hsub : seen ⊆ seen') : Restored platform seen' root snapshot := by
  obtain ⟨stat, bytes, hstat, hfile, hlink, hmode, hread, hdigest⟩ := h
  exact ⟨stat, bytes, hsub hstat, hfile, hlink, hmode, hsub hread, hdigest⟩

/-- Where the validation succeeds, every restored file has the digest of its source. -/
theorem runs_validateRestored_ok {root : String} {vars vars' : Vars}
    {sources : List ValidatedSnapshot} {trace : List RestoreEvent}
    (h : (validateRestored platform root vars sources).Runs trace (vars', .ok ()))
    (hsources : ∀ source ∈ sources, source.sha256 = source.manifest.sha256) :
    vars'.records = vars.records ∧
      ∀ source ∈ sources, Restored platform trace root source.manifest := by
  induction sources generalizing vars trace with
  | nil =>
    obtain ⟨rfl, ⟨⟩⟩ := Prog.runs_ret.mp h
    exact ⟨rfl, by simp⟩
  | cons source sources ih =>
    obtain ⟨first, rest, outcome, rfl, hfirst, hrest⟩ := Prog.runs_bind.mp h
    rcases outcome with error | state
    · obtain ⟨-, ⟨⟩⟩ := Prog.runs_ret.mp hrest
    · obtain ⟨hsource, hsources⟩ := List.forall_mem_cons.mp hsources
      obtain ⟨hrecords, hrestored⟩ := ih hrest hsources
      refine ⟨hrecords, List.forall_mem_cons.mpr ⟨?_, fun source hmem => ?_⟩⟩
      · exact ((runs_validateRestoredSnapshot hfirst).2 state rfl hsource).mono
          (List.subset_append_left _ _)
      · exact (hrestored source hmem).mono (List.subset_append_right _ _)

/-- The hook, and then what comes after it. -/
theorem IsQuiet.hook {α : Type} {vars : Vars} {directory : Option String}
    (hroot : vars.restoreRoot = directory) (root : String) {p : Trying α}
    (hp : IsQuiet directory p) :
    IsQuiet directory (Prog.call (.afterRestore root) fun
      | .error error => .ret (vars, .error error)
      | .ok () => p : Trying α) := by
  intro trace vars' outcome h
  obtain ⟨answer, rest, rfl, hrest⟩ := Prog.runs_call.mp h
  rcases answer with error | _
  · obtain ⟨rfl, ⟨⟩⟩ := Prog.runs_ret.mp hrest
    exact ⟨.cons rfl .nil, hroot, .of_call rfl⟩
  · obtain ⟨hcalm, hroot', hhonest⟩ := hp _ _ _ hrest
    exact ⟨.cons rfl hcalm, hroot', hhonest.cons⟩

theorem isQuiet_startupGate {vars : Vars} {directory : Option String}
    (hroot : vars.restoreRoot = directory) (sources : List ValidatedSnapshot) (root : String) :
    IsQuiet directory (startupGate platform plan vars sources root) :=
  (isQuiet_enter hroot _).next fun _ _ hroot =>
    (isQuiet_tryNow hroot (by simp)).next fun _ _ hroot =>
      .hook hroot root <| (isQuiet_validateRestored hroot root sources).next fun _ _ hroot =>
        (isQuiet_tryNow hroot (by simp)).next fun _ _ hroot => isQuiet_pushCompleted hroot _ _ _ _

/-- What the startup gate lets through is as it should be after the hook. -/
theorem runs_startupGate_ok {vars vars' : Vars} {sources : List ValidatedSnapshot} {root : String}
    {trace : List RestoreEvent}
    (h : (startupGate platform plan vars sources root).Runs trace (vars', .ok ()))
    (hsources : ∀ source ∈ sources, source.sha256 = source.manifest.sha256) :
    notedIn vars'.records = notedIn vars.records ++ [(.startupGate, .succeeded)] ∧
      ∃ front back, trace = front ++ ⟨.afterRestore root, .ok ()⟩ :: back ∧
        ∀ source ∈ sources, Restored platform back root source.manifest := by
  obtain ⟨_, rest₁, vars₁, step, rfl, henter, hrest₁⟩ := runs_next_ok h
  obtain ⟨rfl, hstep, rfl⟩ := runs_enter_ok henter
  obtain ⟨_, rest₂, vars₂, startedAt, rfl, hnow, hrest₂⟩ := runs_next_ok hrest₁
  obtain ⟨rfl, rfl⟩ := runs_tryNow_ok hnow
  obtain ⟨answer, rest₃, rfl, hrest₃⟩ := Prog.runs_call.mp hrest₂
  rcases answer with error | _
  · obtain ⟨-, ⟨⟩⟩ := Prog.runs_ret.mp hrest₃
  · obtain ⟨back, rest₄, vars₃, _, rfl, hrestored, hrest₄⟩ := runs_next_ok hrest₃
    obtain ⟨hrecords, hfiles⟩ := runs_validateRestored_ok hrestored hsources
    obtain ⟨_, rest₅, vars₄, finishedAt, rfl, hnow, hrest₅⟩ := runs_next_ok hrest₄
    obtain ⟨rfl, rfl⟩ := runs_tryNow_ok hnow
    obtain ⟨rfl, -, -, records, rfl, hnoted⟩ := runs_pushCompleted_ok hrest₅
    refine ⟨?_, [⟨.now .startupStart, .ok startedAt⟩], _, rfl, fun source hmem => ?_⟩
    · rw [← hstep, ← hnoted]
      simp [notedIn, hrecords]
    · exact (hfiles source hmem).mono (List.subset_append_left _ _)

/-! ## The reconciliation -/

/-- The reconciliation is quiet. -/
theorem isQuiet_reconcile {vars : Vars} {directory : Option String}
    (hroot : vars.restoreRoot = directory) (boundary : TimeValue) :
    IsQuiet directory (reconcile plan vars boundary) := by
  refine (isQuiet_enter hroot _).next fun vars step hroot =>
    (isQuiet_tryNow hroot (by simp)).next fun vars startedAt hroot => ?_
  split
  · exact .ret hroot .error
  · refine (isQuiet_tryNow hroot (by simp)).next fun vars time hroot => ?_
    dsimp only
    split
    · exact .ret hroot .error
    · exact (isQuiet_tryNow (by exact hroot) (by simp)).next fun vars finishedAt hroot =>
        isQuiet_pushCompleted hroot _ _ _ _

/-- A reconciliation that succeeds has held the RTO, and records itself. -/
theorem runs_reconcile_ok {vars vars' : Vars} {start : Int} {trace : List RestoreEvent}
    (h : (reconcile plan vars (some start)).Runs trace (vars', .ok ())) (hnoticed : Noticed trace) :
    notedIn vars'.records = notedIn vars.records ++ [(.reconciliation, .succeeded)] ∧
      ∃ finish : Int, (⟨.now .rto, .ok (some finish)⟩ : RestoreEvent) ∈ trace ∧
        vars'.rtoMilliseconds = some (some (finish - start)) ∧ finish - start ≤ 900000 := by
  obtain ⟨_, rest₁, vars₁, step, rfl, henter, hrest₁⟩ := runs_next_ok h
  obtain ⟨rfl, hstep, rfl⟩ := runs_enter_ok henter
  obtain ⟨_, rest₂, vars₂, startedAt, rfl, hnow, hrest₂⟩ := runs_next_ok hrest₁
  obtain ⟨rfl, rfl⟩ := runs_tryNow_ok hnow
  split at hrest₂
  · obtain ⟨-, ⟨⟩⟩ := Prog.runs_ret.mp hrest₂
  · obtain ⟨_, rest₃, vars₃, time, rfl, hnow, hrest₃⟩ := runs_next_ok hrest₂
    obtain ⟨rfl, rfl⟩ := runs_tryNow_ok hnow
    dsimp only at hrest₃
    split at hrest₃
    · obtain ⟨-, ⟨⟩⟩ := Prog.runs_ret.mp hrest₃
    · next hbound =>
      obtain ⟨_, rest₄, vars₄, finishedAt, rfl, hnow, hrest₄⟩ := runs_next_ok hrest₃
      obtain ⟨rfl, rfl⟩ := runs_tryNow_ok hnow
      obtain ⟨rfl, -, -, records, rfl, hnoted⟩ := runs_pushCompleted_ok hrest₄
      -- a time that is none would have passed unseen
      rcases time with _ | finish
      · have := hnoticed ⟨.now .rto, .ok none⟩ (by simp)
        cases this
      · refine ⟨?_, finish, by simp, rfl, ?_⟩
        · rw [← hstep, ← hnoted]
          simp [notedIn]
        · simpa [exceeds, elapsed] using hbound

/-! ## The whole `try` -/

/-- What a `try` stands for that has not thrown. -/
structure Succeeded (platform : Platform) (options : RestoreOptions) (plan : StateRestorePlan)
    (trace : List RestoreEvent) (vars : Vars) (root : String) (front back : List RestoreEvent) :
    Prop where
  restoreRoot : vars.restoreRoot = some root
  trace_eq : trace = front ++ ⟨.afterRestore root, .ok ()⟩ :: back
  verified : Verified platform options plan front
  restored : ∀ snapshot ∈ plan.manifest.snapshots, Restored platform back root snapshot
  rto : RtoHeld trace vars.rtoMilliseconds
  noted : notedIn vars.records = [(.snapshotPreflight, .succeeded), (.restore, .succeeded),
    (.startupGate, .succeeded), (.reconciliation, .succeeded)]

/-- What is known of the whole attempt, and of one that succeeds. -/
theorem runs_attempt {trace : List RestoreEvent} {vars : Vars} {outcome : Except Raised Unit}
    (h : (attempt platform options plan noVars).Runs trace (vars, outcome)) :
    Tried platform options plan trace vars outcome ∧ (outcome = .ok () → Noticed trace →
      ∃ root front back, Succeeded platform options plan trace vars root front back) := by
  have hnone : noVars.restoreRoot = none := rfl
  rcases runs_next h with ⟨first, rest₁, vars₁, found, rfl, hfirst, hrest₁⟩ | ⟨error, hthrown, rfl⟩
  rotate_left
  · obtain ⟨hcalm, hroot, hhonest⟩ := isQuiet_preflight hnone _ _ _ hthrown
    refine ⟨.of_calm hcalm hroot ?_, by rintro ⟨⟩⟩
    rintro error' ⟨⟩ hnoticed
    exact hhonest error rfl hnoticed
  obtain ⟨hcalm, hroot, hhonest⟩ := isQuiet_preflight hnone _ _ _ hfirst
  obtain ⟨hchecked, -, hnoted⟩ := runs_preflight_ok hfirst
  have htried : Tried platform options plan first vars₁ (.ok found) := .of_calm hcalm hroot hhonest
  rcases runs_next hrest₁ with
    ⟨second, rest₂, vars₂, root, rfl, hsecond, hrest₂⟩ | ⟨error, hthrown, rfl⟩
  rotate_left
  · obtain ⟨htried, -⟩ := runs_restore hthrown htried hroot hchecked
    refine ⟨{ htried with honest := ?_ }, by rintro ⟨⟩⟩
    rintro error' ⟨⟩ hnoticed
    exact htried.honest error rfl hnoticed
  obtain ⟨htried₂, hok₂⟩ := runs_restore hsecond htried hroot hchecked
  obtain ⟨hroot₂, -, hnoted₂⟩ := hok₂ root rfl
  -- from here on nothing is written
  have hquiet : IsQuiet (some root) ((startupGate platform plan vars₂ found.1 root).next
      fun vars _ => reconcile plan vars found.2) :=
    (isQuiet_startupGate hroot₂ found.1 root).next fun vars _ hroot => isQuiet_reconcile hroot _
  obtain ⟨hcalm₃, hroot₃, hhonest₃⟩ := hquiet _ _ _ hrest₂
  rw [← List.append_assoc]
  refine ⟨htried₂.andCalm hcalm₃ (hroot₃.trans hroot₂.symm) hhonest₃, ?_⟩
  rintro rfl hnoticed
  obtain ⟨third, last, vars₃, _, rfl, hthird, hlast⟩ := runs_next_ok hrest₂
  obtain ⟨hnoted₃, front, back, rfl, hrestored⟩ := runs_startupGate_ok hthird fun source hsource =>
    (hchecked.genuine source hsource).sha256_eq
  obtain ⟨start, hstart, hboundary, -⟩ := hchecked.boundary
  rw [hstart] at hlast
  obtain ⟨hnoted₄, finish, hfinish, hrto, hwithin⟩ := runs_reconcile_ok hlast hnoticed.right.right
  refine ⟨root, first ++ second ++ front, back ++ last, hroot₃, by simp, ?_, ?_, ?_, ?_⟩
  · exact hchecked.verified.mono fun e he => by simp [he]
  · intro snapshot hsnapshot
    rw [← hchecked.manifests] at hsnapshot
    obtain ⟨source, hsource, rfl⟩ := List.mem_map.mp hsnapshot
    exact (hrestored source hsource).mono (List.subset_append_left _ _)
  · exact ⟨start, finish, by simp [hboundary], by simp [hfinish], hrto, hwithin⟩
  · rw [hnoted₄, hnoted₃, hnoted₂, hnoted]
    rfl

/-! ## The record of a failure -/

/-- The record of a failure escapes when the clock fails. -/
theorem runs_recordFailure {vars : Vars} {error : Raised} {trace : List RestoreEvent}
    {result : Except Raised Vars} (h : (recordFailure vars error).Runs trace result) :
    Silent trace ∧ removalsIn trace = [] ∧
      ((∃ thrown, result = .error thrown) ∧ ¬ Contained trace ∨
        ∃ vars', result = .ok vars' ∧ Contained trace ∧ vars'.restoreRoot = vars.restoreRoot) := by
  unfold recordFailure at h
  split at h
  · obtain ⟨rfl, rfl⟩ := Prog.runs_ret.mp h
    exact ⟨by simp [Silent], rfl, Or.inr ⟨vars, rfl, by simp [Contained], rfl⟩⟩
  · next step hstep =>
    obtain ⟨answer, rest, rfl, hrest⟩ := Prog.runs_call.mp h
    rcases answer with thrown | _ | at_
    · obtain ⟨rfl, rfl⟩ := Prog.runs_ret.mp hrest
      exact ⟨by simp [Silent, Writes, writtenBy], rfl,
        Or.inl ⟨⟨thrown, rfl⟩, by simp [Contained, Escapes]⟩⟩
    · obtain ⟨rfl, rfl⟩ := Prog.runs_ret.mp hrest
      exact ⟨by simp [Silent, Writes, writtenBy], rfl,
        Or.inl ⟨⟨_, rfl⟩, by simp [Contained, Escapes]⟩⟩
    · obtain ⟨rfl, rfl⟩ := Prog.runs_ret.mp hrest
      exact ⟨by simp [Silent, Writes, writtenBy], rfl,
        Or.inr ⟨_, rfl, by simp [Contained, Escapes], rfl⟩⟩

/-! ## The cleanup -/

/-- The removal is attempted once if there is a directory, and what is left of it is a failure. -/
theorem runs_removeRoot {restoreRoot : Option String} {trace : List RestoreEvent}
    {failure : Raised} {tempDirs : Nat}
    (h : (removeRoot restoreRoot).Runs trace (failure, tempDirs)) :
    Silent trace ∧ Contained trace ∧ removalsIn trace = restoreRoot.toList ∧
      (failure.truthy = false → tempDirs = 0 ∧ ∀ root ∈ restoreRoot, ∃ removed gone,
        trace = [⟨.rm root, removed⟩, ⟨.lstatLeft root, .error gone⟩]) := by
  rcases restoreRoot with _ | root
  · obtain ⟨rfl, ⟨⟩⟩ := Prog.runs_ret.mp h
    exact ⟨by simp [Silent], by simp [Contained], rfl, fun _ => ⟨rfl, by simp⟩⟩
  · obtain ⟨removed, rest, rfl, hrest⟩ := Prog.runs_call.mp h
    obtain ⟨left, rest', rfl, hrest'⟩ := Prog.runs_call.mp hrest
    rcases left with gone | stat
    · obtain ⟨rfl, hpair⟩ := Prog.runs_ret.mp hrest'
      obtain ⟨rfl, rfl⟩ := Prod.mk.inj hpair
      refine ⟨by simp [Silent, Writes, writtenBy], by simp [Contained, Escapes], rfl, fun _ => ?_⟩
      refine ⟨rfl, ?_⟩
      rintro root' ⟨⟩
      exact ⟨removed, gone, rfl⟩
    · obtain ⟨rfl, hpair⟩ := Prog.runs_ret.mp hrest'
      obtain ⟨rfl, rfl⟩ := Prod.mk.inj hpair
      refine ⟨by simp [Silent, Writes, writtenBy], by simp [Contained, Escapes], rfl, fun hfalsy => ?_⟩
      rw [Raised.truthy_orElse] at hfalsy
      simp [Raised.truthy] at hfalsy

/-- The record of the cleanup is of two valid dates, and succeeded unless the cleanup failed. -/
theorem cleanupRecord_ok {step : StateRestoreStep} {startedAt finishedAt : TimeValue}
    {failure : Raised} {record : StateRestoreStepEvidence}
    (h : cleanupRecord step startedAt finishedAt failure = .ok record) :
    startedAt ≠ none ∧ finishedAt ≠ none ∧ record.id = .cleanup ∧
      (failure.truthy = false → record.status = .succeeded) := by
  rcases startedAt with _ | start <;> rcases finishedAt with _ | finish <;>
    simp [cleanupRecord, isoText, bind, Except.bind, pure, Except.pure] at h
  subst h
  simp +contextual

theorem cleanupRecord_error {step : StateRestoreStep} {startedAt finishedAt : TimeValue}
    {failure error : Raised}
    (h : cleanupRecord step startedAt finishedAt failure = .error error) :
    startedAt = none ∨ finishedAt = none := by
  rcases startedAt with _ | start <;> rcases finishedAt with _ | finish <;>
    simp [cleanupRecord, isoText, bind, Except.bind, pure, Except.pure] at h ⊢

/-- The cleanup throws when the clock fails, and then only. -/
theorem runs_cleanupRestore {restoreRoot : Option String} {trace : List RestoreEvent}
    {result : Except Raised Cleanup} (hstep : ∃ step ∈ plan.steps, step.id = .cleanup)
    (h : (cleanupRestore plan restoreRoot).Runs trace result) :
    Silent trace ∧ ((∃ error, result = .error error) ∧ ¬ Contained trace ∨
      ∃ cleanup, result = .ok cleanup ∧ Contained trace ∧ removalsIn trace = restoreRoot.toList ∧
        cleanup.record.id = .cleanup ∧ (cleanup.failure.truthy = false →
          cleanup.record.status = .succeeded ∧ cleanup.tempDirs = 0 ∧ ∀ root ∈ restoreRoot,
            ∃ start removed gone finish, trace =
              [start, ⟨.rm root, removed⟩, ⟨.lstatLeft root, .error gone⟩, finish])) := by
  unfold cleanupRestore at h
  split at h
  · next error herror =>
    -- the plan has a cleanup step, so it is found
    obtain ⟨step, hmem, hid⟩ := hstep
    unfold findStep at herror
    split at herror
    · cases herror
    · next hnone =>
      have := List.find?_eq_none.mp hnone step hmem
      simp [hid] at this
  · next step _ =>
    obtain ⟨answer, rest, rfl, hrest⟩ := Prog.runs_call.mp h
    rcases answer with error | startedAt
    · obtain ⟨rfl, rfl⟩ := Prog.runs_ret.mp hrest
      exact ⟨by simp [Silent, Writes, writtenBy],
        Or.inl ⟨⟨error, rfl⟩, by simp [Contained, Escapes]⟩⟩
    obtain ⟨middle, rest', ⟨failure, tempDirs⟩, rfl, hmiddle, hrest'⟩ := Prog.runs_bind.mp hrest
    -- the removal never throws; it tells whether the directory is left
    obtain ⟨hsilent, hcontained, hremoved, hgone⟩ := runs_removeRoot hmiddle
    obtain ⟨answer, last, rfl, hlast⟩ := Prog.runs_call.mp hrest'
    have hsilent' : Silent (⟨.now .cleanupStart, .ok startedAt⟩ ::
        (middle ++ [(⟨.now .cleanupEnd, answer⟩ : RestoreEvent)])) :=
      List.forall_mem_cons.mpr ⟨rfl, hsilent.append (by simp [Silent, Writes, writtenBy])⟩
    rcases answer with error | finishedAt
    · obtain ⟨rfl, rfl⟩ := Prog.runs_ret.mp hlast
      exact ⟨hsilent', Or.inl ⟨⟨error, rfl⟩, by simp [Contained, Escapes]⟩⟩
    · dsimp only at hlast
      split at hlast
      · next error herror =>
        obtain ⟨rfl, rfl⟩ := Prog.runs_ret.mp hlast
        refine ⟨hsilent', Or.inl ⟨⟨error, rfl⟩, ?_⟩⟩
        rcases cleanupRecord_error herror with rfl | rfl <;> simp [Contained, Escapes]
      · next record hrecord =>
        obtain ⟨rfl, rfl⟩ := Prog.runs_ret.mp hlast
        obtain ⟨hstart, hfinish, hid, hstatus⟩ := cleanupRecord_ok hrecord
        obtain ⟨start, rfl⟩ := Option.ne_none_iff_exists'.mp hstart
        obtain ⟨finish, rfl⟩ := Option.ne_none_iff_exists'.mp hfinish
        refine ⟨hsilent', Or.inr ⟨_, rfl, ?_, ?_, hid, fun hfalsy => ⟨hstatus hfalsy, ?_⟩⟩⟩
        · exact List.forall_mem_cons.mpr ⟨rfl, hcontained.append (by simp [Contained, Escapes])⟩
        · rw [← hremoved]
          exact (removalsIn_append middle _).trans (List.append_nil _)
        · obtain ⟨hdirs, hgone⟩ := hgone hfalsy
          refine ⟨hdirs, fun root hroot => ?_⟩
          obtain ⟨removed, gone, rfl⟩ := hgone root hroot
          exact ⟨_, removed, gone, _, rfl⟩

/-! ## The end -/

/-- What `failure` holds after the `try`. -/
def failureOf : Except Raised Unit → Raised
  | .ok () => .undefined
  | .error error => error

/-- What comes after the `try`: a failure that escapes, or the cleanup and what is made of it. -/
theorem runs_finish {vars : Vars} {failure : Raised} {trace : List RestoreEvent}
    {result : Except RestoreFailure StateRestoreEvidence}
    (hstep : ∃ step ∈ plan.steps, step.id = .cleanup)
    (h : (finish plan vars failure).Runs trace result) :
    Silent trace ∧ ((∃ thrown, result = .error (.thrown thrown)) ∧ ¬ Contained trace ∨
      ∃ cleanup, result = conclude plan vars failure cleanup ∧ Contained trace ∧
        removalsIn trace = vars.restoreRoot.toList ∧ cleanup.record.id = .cleanup ∧
        (cleanup.failure.truthy = false →
          cleanup.record.status = .succeeded ∧ cleanup.tempDirs = 0 ∧ ∀ root ∈ vars.restoreRoot,
            ∃ start removed gone finish, trace =
              [start, ⟨.rm root, removed⟩, ⟨.lstatLeft root, .error gone⟩, finish])) := by
  obtain ⟨first, rest, outcome, rfl, hfirst, hrest⟩ := Prog.runs_bind.mp h
  obtain ⟨hsilent, ⟨⟨error, rfl⟩, hescapes⟩ | ⟨cleanup, rfl, hcleanup⟩⟩ :=
    runs_cleanupRestore hstep hfirst
  · obtain ⟨rfl, rfl⟩ := Prog.runs_ret.mp hrest
    rw [List.append_nil]
    exact ⟨hsilent, Or.inl ⟨⟨error, rfl⟩, hescapes⟩⟩
  · obtain ⟨rfl, rfl⟩ := Prog.runs_ret.mp hrest
    rw [List.append_nil]
    exact ⟨hsilent, Or.inr ⟨cleanup, rfl, hcleanup⟩⟩

/-- A failure that is truthy is thrown with the evidence; else the evidence is returned. -/
theorem conclude_cases (plan : StateRestorePlan) (vars : Vars) (failure : Raised) (cleanup : Cleanup) :
    ∃ evidence : StateRestoreEvidence, evidence.steps = vars.records ++ [cleanup.record] ∧
      evidence.rtoMilliseconds = vars.rtoMilliseconds ∧ evidence.tempDirs = cleanup.tempDirs ∧
      EndsWith (conclude plan vars failure cleanup) evidence ∧
      (conclude plan vars failure cleanup = .ok evidence →
        failure.truthy = false ∧ cleanup.failure.truthy = false) := by
  by_cases hfailure : (failure.orElse cleanup.failure).truthy
  · have hresult : conclude plan vars failure cleanup = .error (.rehearsal _ (evidence plan _)) :=
      if_pos hfailure
    refine ⟨_, rfl, rfl, rfl, Or.inr ⟨_, hresult, if_pos hfailure⟩, fun hok => ?_⟩
    rw [hresult] at hok
    cases hok
  · have hresult : conclude plan vars failure cleanup = .ok (evidence plan _) := if_neg hfailure
    refine ⟨_, rfl, rfl, rfl, Or.inl ⟨hresult, if_neg hfailure⟩, fun _ => ?_⟩
    simpa [Raised.truthy_orElse] using hfailure

variable {trace : List RestoreEvent} {result : Except RestoreFailure StateRestoreEvidence}

/-- The parts of a confirmed rehearsal. -/
theorem runs_execute (hstep : ∃ step ∈ plan.steps, step.id = .cleanup)
    (hdry : options.dryRun = false) (hconfirm : options.confirm = some plan.planHash)
    (h : (executeStateRestoreRehearsal platform plan options).Runs trace result) :
    ∃ first rest vars outcome, trace = first ++ rest ∧
      (attempt platform options plan noVars).Runs first (vars, outcome) ∧ Silent rest ∧
      ((∃ thrown, result = .error (.thrown thrown)) ∧ ¬ Contained rest ∨
        ∃ vars' cleanup, result = conclude plan vars' (failureOf outcome) cleanup ∧ Contained rest ∧
          removalsIn rest = vars.restoreRoot.toList ∧ cleanup.record.id = .cleanup ∧
          (outcome = .ok () → vars' = vars ∧ (cleanup.failure.truthy = false →
            cleanup.record.status = .succeeded ∧ cleanup.tempDirs = 0 ∧ ∀ root ∈ vars.restoreRoot,
              ∃ start removed gone finish, rest =
                [start, ⟨.rm root, removed⟩, ⟨.lstatLeft root, .error gone⟩, finish]))) := by
  rw [executeStateRestoreRehearsal, if_neg (by simp [hdry]), if_neg (by simp [hconfirm])] at h
  obtain ⟨first, rest, ⟨vars, outcome⟩, rfl, hfirst, hrest⟩ := Prog.runs_bind.mp h
  refine ⟨first, rest, vars, outcome, rfl, hfirst, ?_⟩
  rcases outcome with error | _
  · obtain ⟨second, last, outcome, rfl, hsecond, hlast⟩ := Prog.runs_bind.mp hrest
    obtain ⟨hsilent, hno, ⟨⟨thrown, rfl⟩, hescapes⟩ | ⟨vars', rfl, hcontained, hroot⟩⟩ :=
      runs_recordFailure hsecond
    · obtain ⟨rfl, rfl⟩ := Prog.runs_ret.mp hlast
      rw [List.append_nil]
      exact ⟨hsilent, Or.inl ⟨⟨thrown, rfl⟩, hescapes⟩⟩
    · obtain ⟨hsilent', hend⟩ := runs_finish hstep hlast
      refine ⟨hsilent.append hsilent', ?_⟩
      rcases hend with ⟨hthrown, hescapes⟩ | ⟨cleanup, rfl, hcontained', hremoved, hid, -⟩
      · exact Or.inl ⟨hthrown, fun hall => hescapes fun e he => hall e (List.mem_append_right _ he)⟩
      · refine Or.inr ⟨vars', cleanup, rfl, hcontained.append hcontained', ?_, hid, by rintro ⟨⟩⟩
        rw [removalsIn_append, hno, hremoved, hroot, List.nil_append]
  · obtain ⟨hsilent, hend⟩ := runs_finish hstep hrest
    refine ⟨hsilent, hend.imp_right ?_⟩
    rintro ⟨cleanup, rfl, hcontained, hremoved, hid, hgone⟩
    exact ⟨vars, cleanup, rfl, hcontained, hremoved, hid, fun _ => ⟨rfl, hgone⟩⟩

/-- **Nothing is written before the sources are verified, or outside of the directory.** -/
theorem restore_guarded (hstep : ∃ step ∈ plan.steps, step.id = .cleanup)
    (hdry : options.dryRun = false) (hconfirm : options.confirm = some plan.planHash)
    (hcaptured : platform.dateMs plan.manifest.capturedAt ≠ none)
    (h : (executeStateRestoreRehearsal platform plan options).Runs trace result) :
    Guarded platform options plan [] trace := by
  obtain ⟨first, rest, vars, outcome, rfl, hfirst, hsilent, -⟩ := runs_execute hstep hdry hconfirm h
  exact ((runs_attempt hfirst).1.guarded hcaptured).append (hsilent.guarded _)

/-- **A rehearsal with a valid capture time reports, unless a failure passes unseen or escapes.** -/
theorem restore_reports (hsteps : ∀ id, ∃ step ∈ plan.steps, step.id = id)
    (hdry : options.dryRun = false) (hconfirm : options.confirm = some plan.planHash)
    (h : (executeStateRestoreRehearsal platform plan options).Runs trace result) :
    (Noticed trace ∧ Contained trace ∧ platform.dateMs plan.manifest.capturedAt ≠ none →
        Nonempty (Report platform options plan trace result)) ∧
      (Nonempty (Report platform options plan trace result) → Contained trace) := by
  have hguarded := fun hcaptured => restore_guarded (hsteps .cleanup) hdry hconfirm hcaptured h
  obtain ⟨first, rest, vars, outcome, rfl, hfirst, hsilent, hend⟩ :=
    runs_execute (hsteps .cleanup) hdry hconfirm h
  obtain ⟨htried, hsucceeded⟩ := runs_attempt hfirst
  -- a throw out of the cleanup leaves no report
  rcases hend with ⟨⟨thrown, rfl⟩, hescapes⟩ |
    ⟨vars', cleanup, rfl, hcontained, hremoved, hid, hok⟩
  · refine ⟨fun ⟨_, hall, _⟩ => (hescapes fun e he => hall e (List.mem_append_right _ he)).elim,
      fun hreport => (not_report hreport).elim⟩
  refine ⟨fun ⟨hnoticed, _, hcaptured⟩ => ?_, fun _ => htried.contained.append hcontained⟩
  have hcreated : createdIn (first ++ rest) = vars.restoreRoot.toList := by
    rw [createdIn_append, htried.created, hsilent.createdIn, List.append_nil]
  obtain ⟨evidence, hsteps_eq, hrto, hdirs, hending, hcompleted⟩ :=
    conclude_cases plan vars' (failureOf outcome) cleanup
  refine ⟨{ guarded := hguarded hcaptured, created := ?_, removed := ?_, evidence, ending := hending
            records := vars'.records, cleanup := cleanup.record, cleanup_id := hid
            steps_eq := hsteps_eq, certified := fun hresult => ?_ }⟩
  · rw [hcreated]
    exact Option.length_toList_le
  · rw [removalsIn_append, htried.removed, hremoved, hcreated, List.nil_append]
  · obtain ⟨hfalsy, hclean⟩ := hcompleted hresult
    rcases outcome with error | _
    -- completed, though a step threw: its error would have to be falsy
    · have htruthy := htried.honest error rfl hnoticed.left
      rw [show (failureOf (.error error)).truthy = error.truthy from rfl] at hfalsy
      simp [hfalsy] at htruthy
    obtain ⟨rfl, hgone⟩ := hok rfl
    obtain ⟨hstatus, htemp, hrest⟩ := hgone hclean
    obtain ⟨root, front, back, hdone⟩ := hsucceeded rfl hnoticed.left
    obtain ⟨start, removed, gone, finish, rfl⟩ := hrest root (by simp [hdone.restoreRoot])
    refine ⟨{ root, created := by rw [hcreated, hdone.restoreRoot]; rfl, front, back
              trace_eq := ⟨start, removed, gone, finish, by rw [hdone.trace_eq]⟩
              verified := hdone.verified, restored := hdone.restored, rto := ?_
              tempDirs := hdirs.trans htemp, steps := ?_ }⟩
    · obtain ⟨begin_, end_, hbegin, hend, hvalue, hbound⟩ := hdone.rto
      exact ⟨begin_, end_, List.mem_append_left _ hbegin, List.mem_append_left _ hend,
        hrto.trans hvalue, hbound⟩
    · have := hdone.noted
      rw [hsteps_eq, List.map_append]
      rw [show vars'.records.map (fun record => (record.id, record.status)) = _ from this]
      simp [hid, hstatus]

end Rehearsal

/-! ## Runs -/

namespace Sample

def snapshot (kind : StateKind) : StateSnapshotManifest where
  path := "deploy/rehearsal/state-snapshots/" ++ kind.text ++ "/state.json"
  recordCount := 0
  sha256 := "aa"
  snapshotId := "snapshot-" ++ kind.text ++ "-v1"
  stableId := "synthetic-" ++ kind.text ++ "-v1"
  stateKind := kind

def manifest : StateRestoreManifest where
  capturedAt := "1970-01-01T00:00:00.000Z"
  runId := "sr-20300101-000001"
  snapshots := [.worker, .browser, .warp].map snapshot
  sourceCommit := "3"

def plan : StateRestorePlan := buildStateRestorePlan (fun _ _ _ => "hash") manifest

def options : RestoreOptions where
  confirm := some "hash"
  dryRun := false
  resolveSourcePath path := "/repo/" ++ path

/-- The bytes of a file are the text `w`, `b` or `p`, for the state of the kind without records. -/
def platform : Platform where
  sha256 _ := "aa"
  utf8 bytes := String.ofList (bytes.map fun byte => Char.ofNat byte.toNat)
  parseJson text :=
    let kind := if text = "w" then StateKind.worker else if text = "b" then .browser else .warp
    some (.obj [("records", .arr []), ("schemaVersion", .num "1"),
      ("stableId", .str ("synthetic-" ++ kind.text ++ "-v1")), ("stateKind", .str kind.text)])
  dateMs _ := some 0

/-- The file of a kind, wherever it is. -/
def fileAt (path : String) : List UInt8 :=
  if path ∈ ["/repo/deploy/rehearsal/state-snapshots/worker/state.json", "/tmp/x/worker/state.json"]
    then [119]
  else if path ∈ ["/repo/deploy/rehearsal/state-snapshots/browser/state.json",
    "/tmp/x/browser/state.json"] then [98]
  else [112]

/-- Everything goes well, but for what the hook comes to. -/
def answered (hook : Except Raised Unit) : (c : RestoreCall) → c.Answer
  | .now _ => .ok (some 3600000)
  | .arrange count => ⟨List.range count, .rfl⟩
  | .lstat _ => .ok { mode := 0o100600, size := 1, isFile := true, isSymbolicLink := false }
  | .readFile path => .ok (fileAt path)
  | .mkdtemp _ => .ok ⟨"/tmp/x", by decide⟩
  | .afterRestore _ => hook
  | .mkdir _ | .writeFile .. | .chmod .. | .rm _ => .ok ()
  | .lstatLeft _ => .error (.error "ENOENT: no such file or directory, lstat")

/-- The rehearsal of the plan, with this hook. -/
def run (hook : Except Raised Unit) :
    List RestoreEvent × Except RestoreFailure StateRestoreEvidence :=
  (executeStateRestoreRehearsal platform plan options).answered (answered hook)

end Sample

/-- The hook rejects with `undefined`: nothing is read again, and completed evidence is returned. -/
theorem rejected_hook_completes :
    (∀ id, ∃ step ∈ Sample.plan.steps, step.id = id) ∧
      ∃ trace evidence,
        (executeStateRestoreRehearsal Sample.platform Sample.plan Sample.options).Runs trace
          (.ok evidence) ∧ evidence.event = .completed ∧ evidence.states = [] ∧
        ¬ Nonempty (Report Sample.platform Sample.options Sample.plan trace (.ok evidence)) := by
  refine ⟨by rintro (_ | _ | _ | _ | _) <;> decide, ?_⟩
  obtain ⟨evidence, hresult⟩ : ∃ evidence, (Sample.run (.error .undefined)).2 = .ok evidence :=
    ⟨_, rfl⟩
  have hrun := Prog.runs_answered (Sample.answered (.error .undefined))
    (executeStateRestoreRehearsal Sample.platform Sample.plan Sample.options)
  rw [show Prog.answered _ _ = Sample.run (.error .undefined) from rfl, hresult] at hrun
  have hcompleted : (Sample.run (.error .undefined)).2.map (fun evidence =>
      (evidence.event, evidence.states, evidence.steps.length)) = .ok (.completed, [], 4) := by rfl
  rw [hresult] at hcompleted
  simp only [Except.map, Except.ok.injEq, Prod.mk.injEq] at hcompleted
  obtain ⟨hevent, hstates, hsteps⟩ := hcompleted
  refine ⟨_, evidence, hrun, hevent, hstates, ?_⟩
  -- a report of completed evidence has five steps
  rintro ⟨report⟩
  rcases report.ending with ⟨hok, -⟩ | ⟨message, herror, -⟩
  · obtain ⟨certified⟩ := report.certified hok
    have hfive := congrArg List.length certified.steps
    rw [List.length_map, ← Except.ok.inj hok, hsteps] at hfive
    cases hfive
  · cases herror

/-- With a hook that does nothing the states are verified, and the evidence is a report. -/
theorem restore_reports_completed :
    Nonempty (Report Sample.platform Sample.options Sample.plan (Sample.run (.ok ())).1
      (Sample.run (.ok ())).2) :=
  (restore_reports (by rintro (_ | _ | _ | _ | _) <;> decide) rfl rfl
    (Prog.runs_answered (Sample.answered (.ok ())) _)).1
    ⟨by unfold Noticed; decide +kernel, by unfold Contained; decide +kernel, by decide⟩

end InboxServer.StateRestore
