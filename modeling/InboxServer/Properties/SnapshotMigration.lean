import InboxServer.Properties.RowDigests

/-!
# The migration is all or nothing

* `migration_ends` — how a migration may end, whatever fails
* `migrate_all_or_nothing` — what it leaves behind, and that a second one changes nothing
-/

namespace InboxServer

namespace Migration

open Infra
open Prog (Meets)

/-- The target, as a contract: every call may be made. -/
def target (mayFail : Prop) : Contract TargetCall TargetCall.Answer TargetState where
  asks _ _ := True
  learns := TargetStep mayFail

/-! ## Single calls -/

/-- A call has failed, and nothing is committed. -/
def Failed {α : Type} (mayFail : Prop) (committed : TargetDb) (s : TargetState) (r : Except Raised α) :
    Prop :=
  mayFail ∧ s.committed = committed ∧ ∃ e, r = .error e

/-- The answer is `x` and the state stays, or a call has failed. -/
def Yields {α : Type} (mayFail : Prop) (s : TargetState) (x : Except Raised α) (s' : TargetState)
    (r : Except Raised α) : Prop :=
  (s' = s ∧ r = x) ∨ Failed mayFail s.committed s' r

section Calls

variable {mayFail : Prop} {α β : Type} {s s' : TargetState} {committed db : TargetDb}

theorem meets_ask {c : TargetCall} {Q : TargetState → Except Raised c.Result → Prop}
    (h : ∀ r s', TargetStep mayFail s c r s' → Q s' r) : Meets (target mayFail) Q s (ask c).run :=
  ⟨trivial, fun r s' hstep => h r s' hstep⟩

theorem step_columns {name : String} {r : Except Raised (List Column)}
    (h : TargetStep mayFail ⟨committed, some db⟩ (.columns name) r s') :
    Yields mayFail ⟨committed, some db⟩ (.ok (db.columnsOf name)) s' r := by
  cases h with
  | fails failure => exact Or.inr ⟨failure, rfl, _, rfl⟩
  | closed none _ => cases none
  | columns => exact Or.inl ⟨rfl, rfl⟩

theorem step_uniqueKeys {name : String} {r : Except Raised (Finset UniqueKey)}
    (h : TargetStep mayFail ⟨committed, some db⟩ (.uniqueKeys name) r s') :
    Yields mayFail ⟨committed, some db⟩ (.ok (db.keysOf name)) s' r := by
  cases h with
  | fails failure => exact Or.inr ⟨failure, rfl, _, rfl⟩
  | closed none _ => cases none
  | uniqueKeys => exact Or.inl ⟨rfl, rfl⟩

theorem step_lockTables {names : List String} {r : Except Raised Unit}
    (h : TargetStep mayFail ⟨committed, some db⟩ (.lockTables names) r s') :
    Yields mayFail ⟨committed, some db⟩ (.ok ()) s' r := by
  cases h with
  | fails failure => exact Or.inr ⟨failure, rfl, _, rfl⟩
  | closed none _ => cases none
  | lockTables => exact Or.inl ⟨rfl, rfl⟩

/-- The count is that of the rows, or the call fails. -/
theorem step_rowCount {name : String} {table : TargetTable} (found : db.table? name = some table)
    {r : Except Raised Nat} (h : TargetStep mayFail ⟨committed, some db⟩ (.rowCount name) r s') :
    Yields mayFail ⟨committed, some db⟩ (.ok table.rows.length) s' r := by
  cases h with
  | fails failure => exact Or.inr ⟨failure, rfl, _, rfl⟩
  | closed none _ => cases none
  | rowCount found' =>
    rw [found] at found'
    cases found'
    exact Or.inl ⟨rfl, rfl⟩
  | countMissing missing =>
    rw [found] at missing
    cases missing

/-- The rows come in any order, or the call fails. -/
theorem step_rows {name : String} {columns : List String} {table : TargetTable}
    (found : db.table? name = some table) {r : Except Raised (List DbRow)}
    (h : TargetStep mayFail ⟨committed, some db⟩ (.rows name columns) r s') :
    (s' = ⟨committed, some db⟩ ∧
      ∃ rows, r = .ok rows ∧ rows.Perm (table.rows.map (selectColumns table.columns columns))) ∨
      Failed mayFail committed s' r := by
  cases h with
  | fails failure => exact Or.inr ⟨failure, rfl, _, rfl⟩
  | closed none _ => cases none
  | rows found' all =>
    rw [found] at found'
    cases found'
    exact Or.inl ⟨rfl, _, rfl, all⟩
  | rowsMissing missing =>
    rw [found] at missing
    cases missing

/-- An insert leaves the catalogue as it is, or the call fails. -/
theorem step_insertRows {name : String} {columns : List String} {rows : List DbRow}
    {r : Except Raised Unit}
    (h : TargetStep mayFail ⟨committed, some db⟩ (.insertRows name columns rows) r s') :
    (r = .ok () ∧ ∃ db', SameCatalogue db db' ∧ s' = ⟨committed, some db'⟩) ∨
      Failed mayFail committed s' r := by
  cases h with
  | fails failure => exact Or.inr ⟨failure, rfl, _, rfl⟩
  | closed none _ => cases none
  | insertRows catalogue => exact Or.inl ⟨rfl, _, catalogue, rfl⟩

theorem step_resetSequences {name : String} {columns : List Column} {r : Except Raised Unit}
    (h : TargetStep mayFail ⟨committed, some db⟩ (.resetSequences name columns) r s') :
    (r = .ok () ∧ ∃ db', db'.tables = db.tables ∧ s' = ⟨committed, some db'⟩) ∨
      Failed mayFail committed s' r := by
  cases h with
  | fails failure => exact Or.inr ⟨failure, rfl, _, rfl⟩
  | closed none _ => cases none
  | resetSequences tables => exact Or.inl ⟨rfl, _, tables, rfl⟩

/-- A program that yields `x`, and what follows it. -/
theorem meets_bind_yields {x : Except Raised α} {p : Migrating α} {f : α → Migrating β}
    {Q : TargetState → Except Raised β → Prop}
    (hp : Meets (target mayFail) (Yields mayFail s x) s p.run)
    (hok : ∀ a, x = .ok a → Meets (target mayFail) Q s (f a).run)
    (herror : ∀ e, x = .error e → Q s (.error e))
    (hfailed : ∀ s' e, mayFail → s'.committed = s.committed → Q s' (.error e)) :
    Meets (target mayFail) Q s (p >>= f).run := by
  refine Meets.exceptBind (hp.mono ?_)
  rintro s' r (⟨rfl, rfl⟩ | ⟨hfail, hcommitted, e, rfl⟩)
  · cases hx : r with
    | ok a => exact hok a hx
    | error e => exact herror e hx
  · exact hfailed s' e hfail hcommitted

/-- A check, and what follows it. -/
theorem meets_bind_check {x : Except Raised α} {f : α → Migrating β}
    {Q : TargetState → Except Raised β → Prop}
    (hok : ∀ a, x = .ok a → Meets (target mayFail) Q s (f a).run)
    (herror : ∀ e, x = .error e → Q s (.error e)) :
    Meets (target mayFail) Q s (check x >>= f).run := by
  refine Meets.exceptBind ?_
  cases hx : x with
  | ok a => exact hok a hx
  | error e => exact herror e hx

end Calls

/-! ## The manifest of the target -/

/-- What the manifest of a table is. -/
def TargetDb.tableManifest (sha : Sha256) (db : TargetDb) (name : String) :
    Except Raised TableManifest :=
  match checkColumns name (db.columnsOf name), db.table? name with
  | .error e, _ => .error e
  | .ok (), none => .error s!"target table {name} has no columns"
  | .ok (), some table => (rowDigest sha table.rows).map fun digest =>
      { columns := table.columns, keys := table.keys, count := table.rows.length, digest }

def TargetDb.manifest (sha : Sha256) (db : TargetDb) : List String → Except Raised Manifest
  | [] => .ok []
  | name :: names =>
    match db.tableManifest sha name with
    | .error e => .error e
    | .ok manifest => (db.manifest sha names).map fun rest => (name, manifest) :: rest

/-- A row that is selected by the columns of its table is the row. -/
theorem selectColumns_self {columns : List Column} {row : DbRow}
    (hnodup : (columns.map Column.name).Nodup) (hwidth : row.length = columns.length) :
    selectColumns columns (columns.map Column.name) row = row := by
  unfold selectColumns
  induction columns generalizing row with
  | nil =>
    cases row with
    | nil => rfl
    | cons v row => cases hwidth
  | cons column columns ih =>
    cases row with
    | nil => cases hwidth
    | cons v row =>
      simp only [List.map_cons, List.nodup_cons] at hnodup
      have htail := ih hnodup.2 (Nat.succ.inj hwidth)
      rw [List.map_cons, List.map_cons, List.zip_cons_cons, List.find?_cons_of_pos (by simp)]
      refine congrArg (v :: ·) ?_
      refine Eq.trans (List.map_congr_left fun name hname => ?_) htail
      have hne : column.name ≠ name := by
        rintro rfl
        exact hnodup.1 hname
      rw [List.find?_cons_of_neg (by simpa using hne)]

theorem TargetTable.select_rows (table : TargetTable) :
    table.rows.map (selectColumns table.columns (table.columns.map Column.name)) = table.rows :=
  (List.map_congr_left fun row hrow =>
    selectColumns_self table.nodup (table.width row hrow)).trans (List.map_id _)

section Manifest

variable {mayFail : Prop} {committed db : TargetDb} {name : String} {table : TargetTable}

theorem columnsOf_eq (hfound : db.table? name = some table) : db.columnsOf name = table.columns := by
  rw [TargetDb.columnsOf, hfound]
  rfl

theorem keysOf_eq (hfound : db.table? name = some table) : db.keysOf name = table.keys := by
  rw [TargetDb.keysOf, hfound]
  rfl

theorem columnsOf_eq_nil (hmissing : db.table? name = none) : db.columnsOf name = [] := by
  rw [TargetDb.columnsOf, hmissing]
  rfl

/-- A program that fails where a call does. -/
theorem yields_failed {α : Type} {s s' : TargetState} {x : Except Raised α} {e : Raised}
    (hfail : mayFail) (hcommitted : s'.committed = s.committed) :
    Yields mayFail s x s' (.error e) := Or.inr ⟨hfail, hcommitted, e, rfl⟩

/-- A table that is read gives its entry of the manifest. -/
theorem readTable_meets (sha : Sha256) (hfound : db.table? name = some table) :
    Meets (target mayFail)
      (Yields mayFail ⟨committed, some db⟩ ((rowDigest sha table.rows).map fun digest =>
        { columns := table.columns, keys := table.keys, count := table.rows.length, digest }))
      ⟨committed, some db⟩ (readTable sha name table.columns).run := by
  refine Meets.exceptBind (meets_ask fun r s' hstep => ?_)
  rcases step_rows hfound hstep with ⟨rfl, rows, rfl, hperm⟩ | ⟨hfail, hcommitted, e, rfl⟩
  · rw [table.select_rows] at hperm
    rw [← rowDigest_perm sha hperm]
    refine meets_bind_check (fun digest hdigest => ?_) fun e hdigest => Or.inl ⟨rfl, ?_⟩
    · rw [hdigest]
      refine meets_bind_yields (meets_ask fun _ _ => step_rowCount hfound) ?_
        (fun e h => by cases h) fun _ _ => yields_failed
      rintro count ⟨⟩
      refine meets_bind_yields (meets_ask fun _ _ => step_uniqueKeys) ?_
        (fun e h => by cases h) fun _ _ => yields_failed
      rintro keys ⟨⟩
      rw [keysOf_eq hfound]
      exact Or.inl ⟨rfl, rfl⟩
    · rw [hdigest]
      rfl
  · exact yields_failed hfail hcommitted

/-- A table that there is gives its entry; one that there is not, the error. -/
theorem targetTableManifest_meets (sha : Sha256) (name : String) :
    Meets (target mayFail) (Yields mayFail ⟨committed, some db⟩ (db.tableManifest sha name))
      ⟨committed, some db⟩ (targetTableManifest sha name).run := by
  refine meets_bind_yields (meets_ask fun _ _ => step_columns) ?_ (fun e h => by cases h)
    fun _ _ => yields_failed
  rintro columns ⟨⟩
  unfold TargetDb.tableManifest
  refine meets_bind_check (fun _ hcheck => ?_) fun e hcheck => Or.inl ⟨rfl, ?_⟩
  · rw [hcheck]
    cases hfound : db.table? name with
    | none =>
      rw [columnsOf_eq_nil hfound] at hcheck
      cases hcheck
    | some table =>
      rw [columnsOf_eq hfound]
      exact readTable_meets sha hfound
  · rw [hcheck]

/-- The tables in their order give the manifest of the target. -/
theorem targetManifest_meets (sha : Sha256) (names : List String) :
    Meets (target mayFail) (Yields mayFail ⟨committed, some db⟩ (db.manifest sha names))
      ⟨committed, some db⟩ (targetManifest sha names).run := by
  induction names with
  | nil => exact Or.inl ⟨rfl, rfl⟩
  | cons name names ih =>
    unfold TargetDb.manifest
    refine meets_bind_yields (targetTableManifest_meets sha name) ?_ ?_ fun _ _ => yields_failed
    · intro manifest hmanifest
      rw [hmanifest]
      refine meets_bind_yields ih ?_ ?_ fun _ _ => yields_failed
      · intro rest hrest
        rw [hrest]
        exact Or.inl ⟨rfl, rfl⟩
      · intro e hrest
        rw [hrest]
        exact Or.inl ⟨rfl, rfl⟩
    · intro e hmanifest
      rw [hmanifest]
      exact Or.inl ⟨rfl, rfl⟩

end Manifest

/-! ## The copy -/

section Copy

variable {mayFail : Prop} {committed db : TargetDb}

/-- The catalogue is the one it was, or a call has failed. -/
def Copied (mayFail : Prop) (committed db : TargetDb) (s : TargetState) (r : Except Raised Unit) :
    Prop :=
  (r = .ok () ∧ ∃ db', SameCatalogue db db' ∧ s = ⟨committed, some db'⟩) ∨
    Failed mayFail committed s r

theorem SameCatalogue.trans {db db' db'' : TargetDb} (h : SameCatalogue db db')
    (h' : SameCatalogue db' db'') : SameCatalogue db db'' := Eq.trans h' h

/-- One copy, and the copies that follow it. -/
theorem copied_bind {p : Migrating Unit} {f : Unit → Migrating Unit}
    (hp : Meets (target mayFail) (Copied mayFail committed db) ⟨committed, some db⟩ p.run)
    (hf : ∀ db', SameCatalogue db db' →
      Meets (target mayFail) (Copied mayFail committed db') ⟨committed, some db'⟩ (f ()).run) :
    Meets (target mayFail) (Copied mayFail committed db) ⟨committed, some db⟩ (p >>= f).run := by
  refine Meets.exceptBind (hp.mono ?_)
  rintro s r (⟨rfl, db', hdb', rfl⟩ | ⟨hfail, hcommitted, e, rfl⟩)
  · refine (hf db' hdb').mono ?_
    rintro s r (⟨rfl, db'', hdb'', rfl⟩ | hfailed)
    · exact Or.inl ⟨rfl, db'', hdb'.trans hdb'', rfl⟩
    · exact Or.inr hfailed
  · exact Or.inr ⟨hfail, hcommitted, e, rfl⟩

theorem copied_refl : Copied mayFail committed db ⟨committed, some db⟩ (.ok ()) :=
  Or.inl ⟨rfl, db, rfl, rfl⟩

theorem insertBatches_meets (table : String) (columns : List String)
    (batches : List (List DbRow)) :
    Meets (target mayFail) (Copied mayFail committed db) ⟨committed, some db⟩
      (insertBatches table columns batches).run := by
  induction batches generalizing db with
  | nil => exact copied_refl
  | cons batch batches ih =>
    exact copied_bind (meets_ask fun _ _ => step_insertRows) fun _ _ => ih

theorem copyTables_meets (tables : List SourceTable) :
    Meets (target mayFail) (Copied mayFail committed db) ⟨committed, some db⟩
      (copyTables tables).run := by
  induction tables generalizing db with
  | nil => exact copied_refl
  | cons table tables ih => exact copied_bind (insertBatches_meets _ _ _) fun _ _ => ih

/-- The sequences of all tables are reset without a change to the tables. -/
theorem resetTables_meets (names : List String) :
    Meets (target mayFail)
      (fun s r => (r = .ok () ∧ ∃ db', db'.tables = db.tables ∧ s = ⟨committed, some db'⟩) ∨
        Failed mayFail committed s r)
      ⟨committed, some db⟩ (resetTables names).run := by
  induction names generalizing db with
  | nil => exact Or.inl ⟨rfl, db, rfl, rfl⟩
  | cons name names ih =>
    refine meets_bind_yields (meets_ask fun _ _ => step_columns) ?_ (fun e h => by cases h)
      fun s' e hfail hcommitted => Or.inr ⟨hfail, hcommitted, e, rfl⟩
    intro columns _
    refine Meets.exceptBind (meets_ask fun r s' hstep => ?_)
    rcases step_resetSequences hstep with ⟨rfl, db', hdb', rfl⟩ | ⟨hfail, hcommitted, e, rfl⟩
    · refine ih.mono ?_
      rintro s r (⟨rfl, db'', hdb'', rfl⟩ | hfailed)
      · exact Or.inl ⟨rfl, db'', hdb''.trans hdb', rfl⟩
      · exact Or.inr hfailed
    · exact Or.inr ⟨hfail, hcommitted, e, rfl⟩

end Copy

/-! ## How a migration ends -/

/-- The comparison finds the target to be the snapshot. -/
def Agrees (sha : Sha256) (source : Manifest) (db : TargetDb) : Prop :=
  ∃ manifest, db.manifest sha (source.map Prod.fst) = .ok manifest ∧
    validateSchema source manifest = .ok () ∧ sameData source manifest = true

/-- Every table of the manifest is empty. -/
def Vacant (sha : Sha256) (source : Manifest) (db : TargetDb) : Prop :=
  ∃ manifest, db.manifest sha (source.map Prod.fst) = .ok manifest ∧
    manifest.all (·.2.count = 0) = true

/-- The end of the transaction's body that was begun on `db`. -/
inductive BodyEnd (mayFail : Prop) (sha : Sha256) (apply : Bool) (source : Manifest) (db : TargetDb) :
    TargetState → Except Raised MigrationReport → Prop
  | already (agrees : Agrees sha source db) :
      BodyEnd mayFail sha apply source db ⟨db, some db⟩ (.ok (report .alreadyMigrated source))
  | dryRun (readonly : apply = false) (differs : ¬ Agrees sha source db) :
      BodyEnd mayFail sha apply source db ⟨db, some db⟩ (.ok (report .dryRun source))
  | applied {db' : TargetDb} (applies : apply = true) (differs : ¬ Agrees sha source db)
      (vacant : Vacant sha source db) (catalogue : SameCatalogue db db')
      (agrees : Agrees sha source db') :
      BodyEnd mayFail sha apply source db ⟨db, some db'⟩ (.ok (report .applied source))
  | raised {s : TargetState} {e : Raised} (kept : s.committed = db)
      (cause : mayFail ∨ ¬ Agrees sha source db) :
      BodyEnd mayFail sha apply source db s (.error e)

section Body

variable {mayFail : Prop} {sha : Sha256} {snapshot : Snapshot} {apply : Bool} {source : Manifest}
  {db db' : TargetDb}

/-- Targets with the same tables have the same manifest. -/
theorem manifest_congr (h : db'.tables = db.tables) (names : List String) :
    db'.manifest sha names = db.manifest sha names := by
  have htable : ∀ name, db'.table? name = db.table? name := fun name => by
    rw [TargetDb.table?, TargetDb.table?, h]
  induction names with
  | nil => rfl
  | cons name names ih =>
    rw [TargetDb.manifest, TargetDb.manifest, ih, TargetDb.tableManifest, TargetDb.tableManifest,
      TargetDb.columnsOf, TargetDb.columnsOf, htable]

theorem Agrees.congr (h : Agrees sha source db) (htables : db'.tables = db.tables) :
    Agrees sha source db' := by
  obtain ⟨manifest, hmanifest, hrest⟩ := h
  exact ⟨manifest, (manifest_congr htables _).trans hmanifest, hrest⟩

/-- An import into a vacant target ends with the tables of the source, or fails. -/
theorem importSnapshot_meets (hdiffers : ¬ Agrees sha source db) (happly : apply = true)
    (hvacant : Vacant sha source db) :
    Meets (target mayFail) (BodyEnd mayFail sha apply source db) ⟨db, some db⟩
      (importSnapshot sha snapshot source).run := by
  refine Meets.exceptBind ((copyTables_meets snapshot.tables).mono ?_)
  rintro s r (⟨rfl, db', hcatalogue, rfl⟩ | ⟨hfail, hcommitted, e, rfl⟩)
  · refine meets_bind_yields (targetManifest_meets sha _) ?_
      (fun e _ => .raised rfl (Or.inr hdiffers))
      fun s' e hfail hcommitted => .raised hcommitted (Or.inl hfail)
    intro manifest hmanifest
    refine meets_bind_check (fun _ hvalid => ?_) fun e _ => .raised rfl (Or.inr hdiffers)
    refine meets_bind_check (fun _ hsame => ?_) fun e _ => .raised rfl (Or.inr hdiffers)
    have hagrees : Agrees sha source db' := by
      refine ⟨manifest, hmanifest, hvalid, ?_⟩
      split at hsame
      · next h => exact h
      · cases hsame
    refine Meets.exceptBind ((resetTables_meets _).mono ?_)
    rintro s r (⟨rfl, db'', htables, rfl⟩ | ⟨hfail, hcommitted, e, rfl⟩)
    · have hcatalogue' : SameCatalogue db' db'' := by
        unfold SameCatalogue
        rw [htables]
      exact .applied happly hdiffers hvacant (hcatalogue.trans hcatalogue') (hagrees.congr htables)
    · exact .raised hcommitted (Or.inl hfail)
  · exact .raised hcommitted (Or.inl hfail)

/-- After the comparison nothing is done, or the import, or the call fails. -/
theorem afterComparison_meets {manifest : Manifest}
    (hmanifest : db.manifest sha (source.map Prod.fst) = .ok manifest)
    (hvalid : validateSchema source manifest = .ok ()) :
    Meets (target mayFail) (BodyEnd mayFail sha apply source db) ⟨db, some db⟩
      (afterComparison sha snapshot apply source manifest).run := by
  unfold afterComparison
  split
  · next hsame => exact .already ⟨manifest, hmanifest, hvalid, hsame⟩
  · next hsame =>
    have hdiffers : ¬ Agrees sha source db := by
      rintro ⟨manifest', hmanifest', -, hsame'⟩
      rw [hmanifest] at hmanifest'
      cases hmanifest'
      exact hsame hsame'
    split
    · exact .raised rfl (Or.inr hdiffers)
    · next hempty =>
      have hvacant : manifest.all (·.2.count = 0) = true := by simpa using hempty
      split
      · next hreadonly => exact .dryRun (by simpa using hreadonly) hdiffers
      · next happly =>
        exact importSnapshot_meets hdiffers (by simpa using happly) ⟨manifest, hmanifest, hvacant⟩

/-- How the body of the transaction may end. -/
theorem inTransaction_meets :
    Meets (target mayFail) (BodyEnd mayFail sha apply source db) ⟨db, some db⟩
      (inTransaction sha snapshot apply source).run := by
  have hcompare : Meets (target mayFail) (BodyEnd mayFail sha apply source db) ⟨db, some db⟩
      (do
        let manifest ← targetManifest sha (source.map Prod.fst)
        check (validateSchema source manifest)
        afterComparison sha snapshot apply source manifest : Migrating MigrationReport).run := by
    refine meets_bind_yields (targetManifest_meets sha _) ?_ ?_
      fun s' e hfail hcommitted => .raised hcommitted (Or.inl hfail)
    · intro manifest hmanifest
      refine meets_bind_check (fun _ hvalid => afterComparison_meets hmanifest hvalid)
        fun e hvalid => .raised rfl (Or.inr ?_)
      rintro ⟨manifest', hmanifest', hvalid', -⟩
      rw [hmanifest] at hmanifest'
      cases hmanifest'
      rw [hvalid] at hvalid'
      cases hvalid'
    · intro e hmanifest
      refine .raised rfl (Or.inr ?_)
      rintro ⟨manifest', hmanifest', -⟩
      rw [hmanifest] at hmanifest'
      cases hmanifest'
  unfold inTransaction
  split
  · refine meets_bind_yields (meets_ask fun _ _ => step_lockTables) (fun _ _ => hcompare)
      (fun e h => by cases h) fun s' e hfail hcommitted => .raised hcommitted (Or.inl hfail)
  · exact hcompare

end Body

/-- The names of the target's tables. -/
def TargetDb.names (db : TargetDb) : Finset String := (db.tables.map TargetTable.name).toFinset

/-- The target is found to be the snapshot. -/
def Migrated (sha : Sha256) (snapshot : Snapshot) (db : TargetDb) : Prop :=
  ∃ source, sourceManifest sha snapshot = .ok source ∧
    db.names = (source.map Prod.fst).toFinset ∧ Agrees sha source db

/-- How a migration ends that finds `db` committed. -/
inductive MigrationEnd (mayFail : Prop) (sha : Sha256) (snapshot : Snapshot) (apply : Bool)
    (db : TargetDb) : TargetState → Except Raised MigrationReport → Prop
  | already {s : TargetState} {source : Manifest} (kept : s.committed = db)
      (migrated : Migrated sha snapshot db) :
      MigrationEnd mayFail sha snapshot apply db s (.ok (report .alreadyMigrated source))
  | dryRun {s : TargetState} {source : Manifest} (kept : s.committed = db)
      (readonly : apply = false) (differs : ¬ Migrated sha snapshot db) :
      MigrationEnd mayFail sha snapshot apply db s (.ok (report .dryRun source))
  | applied {s : TargetState} {source : Manifest} (read : sourceManifest sha snapshot = .ok source)
      (names : db.names = (source.map Prod.fst).toFinset) (applies : apply = true)
      (differs : ¬ Migrated sha snapshot db) (vacant : Vacant sha source db)
      (migrated : Migrated sha snapshot s.committed) :
      MigrationEnd mayFail sha snapshot apply db s (.ok (report .applied source))
  | raised {s : TargetState} {e : Raised} (kept : s.committed = db)
      (cause : mayFail ∨ ¬ Migrated sha snapshot db) :
      MigrationEnd mayFail sha snapshot apply db s (.error e)

section Ends

variable {mayFail : Prop} {sha : Sha256} {snapshot : Snapshot} {apply : Bool} {source : Manifest}
  {db db' : TargetDb}

theorem SameCatalogue.names (h : SameCatalogue db db') : db'.names = db.names := by
  have hnames := congrArg (List.map Prod.fst) h
  rw [List.map_map, List.map_map] at hnames
  exact congrArg List.toFinset hnames

/-- The snapshot is found where its manifest agrees. -/
theorem not_migrated (hread : sourceManifest sha snapshot = .ok source)
    (hdiffers : ¬ Agrees sha source db) : ¬ Migrated sha snapshot db := by
  rintro ⟨source', hread', -, hagrees⟩
  rw [hread] at hread'
  cases hread'
  exact hdiffers hagrees

/-- How the transaction may end: committed, or with nothing of it left. -/
theorem transaction_meets {readonly : Bool} {s : TargetState}
    (hread : sourceManifest sha snapshot = .ok source)
    (hnames : s.committed.names = (source.map Prod.fst).toFinset) :
    Meets (target mayFail) (MigrationEnd mayFail sha snapshot apply s.committed) s
      (transaction readonly (inTransaction sha snapshot apply source)).run := by
  -- every branch that returns a report commits first
  have hcommit : ∀ {db' : TargetDb} {result : MigrationReport},
      MigrationEnd mayFail sha snapshot apply s.committed ⟨db', none⟩ (.ok result) →
      ∀ {k : TargetCall.commit.Answer → Prog TargetCall TargetCall.Answer (Except Raised MigrationReport)},
        (∀ e, k (.error e) = .ret (.error e)) → k (.ok ()) = .ret (.ok result) →
        Meets (target mayFail) (MigrationEnd mayFail sha snapshot apply s.committed)
          ⟨s.committed, some db'⟩ (Prog.perform TargetCall.commit >>= k) := by
    intro db' result hend k herror hok
    refine ⟨trivial, fun r s' hstep => ?_⟩
    cases hstep with
    | fails failure =>
      change Meets _ _ _ (k _)
      rw [herror]
      exact .raised rfl (Or.inl failure)
    | closed none _ => cases none
    | commit =>
      change Meets _ _ _ (k _)
      rw [hok]
      exact hend
  refine Meets.perform trivial fun r s' hstep => ?_
  cases hstep with
  | fails failure => exact .raised rfl (Or.inl failure)
  | closed _ inside => cases inside
  | begin =>
    refine Meets.bind (inTransaction_meets.mono fun s' r hbody => ?_)
    cases hbody with
    | already agrees =>
      exact hcommit (.already rfl ⟨source, hread, hnames, agrees⟩) (fun _ => rfl) rfl
    | dryRun readonly differs =>
      exact hcommit (.dryRun rfl readonly (not_migrated hread differs)) (fun _ => rfl) rfl
    | applied applies differs vacant catalogue agrees =>
      exact hcommit (.applied hread hnames applies (not_migrated hread differs) vacant
        ⟨source, hread, catalogue.names.trans hnames, agrees⟩) (fun _ => rfl) rfl
    -- what was raised is raised again, whatever the rollback does
    | raised kept cause =>
      refine Meets.perform trivial fun r s'' hstep => ?_
      have hkept : s''.committed = s.committed := by
        cases hstep with
        | fails => exact kept
        | closed => exact kept
        | rollback => exact kept
      exact .raised hkept (cause.imp_right (not_migrated hread))

/-- **How a migration may end, whatever fails.** -/
theorem migrateSnapshot_meets (s : TargetState) :
    Meets (target mayFail) (MigrationEnd mayFail sha snapshot apply s.committed) s
      (migrateSnapshot sha snapshot apply).run := by
  refine meets_bind_check (fun source hread => ?_) fun e hread => .raised rfl (Or.inr ?_)
  · refine Meets.exceptBind (meets_ask fun r s' hstep => ?_)
    cases hstep with
    | fails failure => exact .raised rfl (Or.inl failure)
    | closed _ inside => cases inside
    | @tables _ names all =>
      have hset : names.toFinset = s.committed.names := List.toFinset_eq_of_perm _ _ all
      refine meets_bind_check (fun _ hcheck => ?_) fun e hcheck => .raised rfl (Or.inr ?_)
      · rw [hset] at hcheck
        split at hcheck
        · cases hcheck
        · next hnames => exact transaction_meets hread (not_not.mp hnames)
      · rintro ⟨source', hread', hnames, -⟩
        rw [hread] at hread'
        cases hread'
        rw [if_neg (not_not.mpr (hset.trans hnames))] at hcheck
        cases hcheck
  · rintro ⟨source', hread', -⟩
    rw [hread] at hread'
    cases hread'

theorem migration_ends {s s' : TargetState} {result : Except Raised MigrationReport}
    (h : Prog.Ends (TargetStep mayFail) s (migrateSnapshot sha snapshot apply).run s' result) :
    MigrationEnd mayFail sha snapshot apply s.committed s' result :=
  Meets.ends (K := target mayFail) (migrateSnapshot_meets s) h

end Ends

/-! ## What the comparison says -/

/-- The target holds the snapshot: the same tables, with the same columns and the same rows. -/
structure Holds (snapshot : Snapshot) (db : TargetDb) : Prop where
  names : (db.tables.map TargetTable.name).Perm (snapshot.tables.map SourceTable.name)
  rows : ∀ table ∈ db.tables, ∀ source ∈ snapshot.tables, table.name = source.name →
    table.columns.map Column.name = source.columns.map Column.name ∧ table.rows.Perm source.rows

/-- Where a list is mapped without an error, so was each of its elements. -/
theorem forall₂_of_mapM {α β : Type} {f : α → Except Raised β} {l : List α} {bs : List β}
    (h : l.mapM f = .ok bs) : List.Forall₂ (fun a b => f a = .ok b) l bs := by
  induction l generalizing bs with
  | nil =>
    cases h
    exact .nil
  | cons a l ih =>
    rw [List.mapM_cons] at h
    cases hb : f a with
    | error e =>
      rw [hb] at h
      cases h
    | ok b =>
      cases hrest : l.mapM f with
      | error e =>
        rw [hb, hrest] at h
        cases h
      | ok rest =>
        rw [hb, hrest] at h
        cases h
        exact .cons hb (ih hrest)

/-- Where a check of all elements passes, so does the one of each. -/
theorem forM_ok {α : Type} {f : α → Except Raised Unit} {l : List α} (h : l.forM f = .ok ()) :
    ∀ a ∈ l, f a = .ok () := by
  induction l with
  | nil => exact fun _ ha => by cases ha
  | cons b l ih =>
    have hseq : (f b >>= fun _ => l.forM f) = .ok () := h
    cases hb : f b with
    | error e =>
      rw [hb] at hseq
      cases hseq
    | ok _ =>
      rw [hb] at hseq
      intro a ha
      rcases List.mem_cons.mp ha with rfl | hrest
      · exact hb
      · exact ih hseq a hrest

section Comparison

variable {sha : Sha256} {snapshot : Snapshot} {source manifest : Manifest} {db : TargetDb}

/-- The entry of a table of the source is of its name, its columns and its rows. -/
theorem namedManifest_ok {table : SourceTable} {entry : String × TableManifest}
    (h : namedManifest sha table = .ok entry) :
    entry.1 = table.name ∧ entry.2.columns = table.columns ∧
      rowDigest sha table.rows = .ok entry.2.digest := by
  unfold namedManifest sourceTableManifest at h
  cases hhidden : table.hidden with
  | true =>
    rw [hhidden] at h
    cases h
  | false =>
    by_cases hcolumns : table.columns = []
    · rw [hhidden, if_pos hcolumns] at h
      cases h
    · rw [hhidden, if_neg hcolumns] at h
      cases hdigest : rowDigest sha table.rows with
      | error e =>
        rw [hdigest] at h
        cases h
      | ok digest =>
        cases hkeys : table.keys with
        | error e =>
          rw [hdigest, hkeys] at h
          cases h
        | ok keys =>
          rw [hdigest, hkeys] at h
          cases h
          exact ⟨rfl, rfl, rfl⟩

/-- The manifest of the source has an entry for each of its tables. -/
theorem sourceManifest_ok (h : sourceManifest sha snapshot = .ok source) :
    source.map Prod.fst = snapshot.tables.map SourceTable.name ∧
      ∀ table ∈ snapshot.tables, ∃ entry ∈ source, entry.1 = table.name ∧
        entry.2.columns = table.columns ∧ rowDigest sha table.rows = .ok entry.2.digest := by
  unfold sourceManifest at h
  split at h
  · cases h
  · have hentries := forall₂_of_mapM h
    clear h
    generalize snapshot.tables = tables at hentries ⊢
    induction hentries with
    | nil => exact ⟨rfl, fun _ ht => by cases ht⟩
    | @cons table entry tables entries hentry _ ih =>
      obtain ⟨hname, hcolumns, hdigest⟩ := namedManifest_ok hentry
      refine ⟨by rw [List.map_cons, List.map_cons, hname, ih.1], fun other hother => ?_⟩
      rcases List.mem_cons.mp hother with rfl | hrest
      · exact ⟨entry, List.mem_cons_self, hname, hcolumns, hdigest⟩
      · obtain ⟨found, hfound, hrest⟩ := ih.2 other hrest
        exact ⟨found, List.mem_cons_of_mem _ hfound, hrest⟩

/-- What the manifest of the target says of a name is the manifest of its table. -/
theorem manifest_lookup {names : List String} (h : db.manifest sha names = .ok manifest)
    {name : String} {entry : TableManifest} (hentry : manifest.lookup name = some entry) :
    db.tableManifest sha name = .ok entry := by
  induction names generalizing manifest with
  | nil =>
    cases h
    cases hentry
  | cons first names ih =>
    rw [TargetDb.manifest] at h
    cases hfirst : db.tableManifest sha first with
    | error e =>
      rw [hfirst] at h
      cases h
    | ok found =>
      rw [hfirst] at h
      cases hrest : db.manifest sha names with
      | error e =>
        rw [hrest] at h
        cases h
      | ok rest =>
        rw [hrest] at h
        cases h
        rw [List.lookup_cons] at hentry
        split at hentry
        · next heq =>
          cases hentry
          rw [beq_iff_eq.mp heq]
          exact hfirst
        · exact ih hrest hentry

/-- Each name of a manifest has its entry in it. -/
theorem manifest_of_mem {names : List String} (h : db.manifest sha names = .ok manifest)
    {name : String} (hname : name ∈ names) :
    ∃ entry, (name, entry) ∈ manifest ∧ db.tableManifest sha name = .ok entry := by
  induction names generalizing manifest with
  | nil => cases hname
  | cons first names ih =>
    rw [TargetDb.manifest] at h
    cases hfirst : db.tableManifest sha first with
    | error e =>
      rw [hfirst] at h
      cases h
    | ok found =>
      rw [hfirst] at h
      cases hrest : db.manifest sha names with
      | error e =>
        rw [hrest] at h
        cases h
      | ok rest =>
        rw [hrest] at h
        cases h
        rcases List.mem_cons.mp hname with rfl | hlater
        · exact ⟨found, List.mem_cons_self, hfirst⟩
        · obtain ⟨entry, hentry, hok⟩ := ih hrest hlater
          exact ⟨entry, List.mem_cons_of_mem _ hentry, hok⟩

/-- The entry of a table of the target is of its columns and its rows. -/
theorem tableManifest_ok {name : String} {entry : TableManifest}
    (h : db.tableManifest sha name = .ok entry) :
    ∃ table, db.table? name = some table ∧ entry.columns = table.columns ∧
      entry.count = table.rows.length ∧ rowDigest sha table.rows = .ok entry.digest := by
  unfold TargetDb.tableManifest at h
  split at h
  · cases h
  · cases h
  · next table _ hfound =>
    cases hdigest : rowDigest sha table.rows with
    | error e =>
      rw [hdigest] at h
      cases h
    | ok digest =>
      rw [hdigest] at h
      cases h
      exact ⟨table, hfound, rfl, rfl, hdigest⟩

/-- A table that is valid has the columns of the source, in its order. -/
theorem validateTable_ok {entry : String × TableManifest}
    (h : validateTable manifest entry = .ok ()) :
    ∃ found, manifest.lookup entry.1 = some found ∧
      entry.2.columns.map Column.name = found.columns.map Column.name := by
  unfold validateTable at h
  split at h
  · cases h
  · next found hfound =>
    split at h
    · cases h
    · next hcolumns => exact ⟨found, hfound, not_not.mp hcolumns⟩

/-- A table is found by its name. -/
theorem table?_of_mem {table : TargetTable} (h : table ∈ db.tables) :
    db.table? table.name = some table := by
  unfold TargetDb.table?
  have hnodup := db.nodup
  generalize db.tables = tables at h hnodup
  induction tables with
  | nil => cases h
  | cons first tables ih =>
    rw [List.map_cons, List.nodup_cons] at hnodup
    rcases List.mem_cons.mp h with rfl | hrest
    · rw [List.find?_cons_of_pos (by simp)]
    · have hne : first.name ≠ table.name := fun heq =>
        hnodup.1 (by rw [heq]; exact List.mem_map_of_mem hrest)
      rw [List.find?_cons_of_neg (by simpa using hne)]
      exact ih hrest hnodup.2

/-- **A target that is found to be the snapshot holds it.** -/
theorem Migrated.holds (hsha : Unforgeable sha snapshot) (h : Migrated sha snapshot db) :
    Holds snapshot db := by
  obtain ⟨source, hread, hnames, manifest, hmanifest, hvalid, hsame⟩ := h
  obtain ⟨hsourceNames, hentries⟩ := sourceManifest_ok hread
  constructor
  · refine List.perm_of_nodup_nodup_toFinset_eq db.nodup snapshot.nodup ?_
    rw [← hsourceNames]
    exact hnames
  · intro table htable origin horigin hname
    obtain ⟨entry, hentry, hentryName, hcolumns, hdigest⟩ := hentries origin horigin
    unfold validateSchema at hvalid
    split at hvalid
    · cases hvalid
    · obtain ⟨found, hfound, hfoundColumns⟩ := validateTable_ok (forM_ok hvalid entry hentry)
      obtain ⟨table', htable', htableColumns, -, htableDigest⟩ :=
        tableManifest_ok (manifest_lookup hmanifest hfound)
      have heq : table' = table := by
        rw [hentryName, ← hname, table?_of_mem htable] at htable'
        exact (Option.some.inj htable').symm
      subst heq
      have hdata := List.all_eq_true.mp hsame entry hentry
      rw [hfound] at hdata
      simp only [Bool.and_eq_true, decide_eq_true_eq] at hdata
      refine ⟨by rw [← htableColumns, ← hfoundColumns, hcolumns], ?_⟩
      rw [← hdata.2] at htableDigest
      exact perm_of_rowDigest hsha horigin hdigest htableDigest

/-- A target whose tables are counted as empty has no rows. -/
theorem Vacant.rows_eq_nil (h : Vacant sha source db)
    (hnames : db.names = (source.map Prod.fst).toFinset) {table : TargetTable}
    (htable : table ∈ db.tables) : table.rows = [] := by
  obtain ⟨manifest, hmanifest, hempty⟩ := h
  have hname : table.name ∈ source.map Prod.fst := by
    rw [← List.mem_toFinset, ← hnames]
    exact List.mem_toFinset.mpr (List.mem_map_of_mem htable)
  obtain ⟨entry, hentry, hok⟩ := manifest_of_mem hmanifest hname
  obtain ⟨found, hfound, -, hcount, -⟩ := tableManifest_ok hok
  rw [table?_of_mem htable] at hfound
  cases hfound
  have hzero := List.all_eq_true.mp hempty _ hentry
  rw [decide_eq_true_eq, hcount] at hzero
  exact List.length_eq_zero_iff.mp hzero

end Comparison

/-! ## All or nothing -/

/-- What a migration leaves behind that found `db` committed. -/
structure AllOrNothing (snapshot : Snapshot) (apply : Bool) (db : TargetDb) (s : TargetState)
    (result : Except Raised MigrationReport) : Prop where
  migrated : apply = true → ∀ report, result = .ok report → Holds snapshot s.committed
  kept : (apply = false ∨ ∃ e, result = .error e) → s.committed = db
  foreign : (∃ table ∈ db.tables, table.rows ≠ []) → ¬ Holds snapshot db → s.committed = db

/-- What a migration does where the snapshot is already: nothing fails but a call. -/
structure Repeated (mayFail : Prop) (db : TargetDb) (s : TargetState)
    (result : Except Raised MigrationReport) : Prop where
  kept : s.committed = db
  mode : ∀ report, result = .ok report → report.mode = .alreadyMigrated
  returns : ¬ mayFail → ∃ report, result = .ok report

section Results

variable {mayFail : Prop} {sha : Sha256} {snapshot : Snapshot} {apply : Bool} {db : TargetDb}
  {s : TargetState} {result : Except Raised MigrationReport}

/-- However a migration ends, all of the snapshot is there, or nothing has changed. -/
theorem MigrationEnd.allOrNothing (hsha : Unforgeable sha snapshot)
    (h : MigrationEnd mayFail sha snapshot apply db s result) :
    AllOrNothing snapshot apply db s result := by
  cases h with
  | already kept migrated =>
    exact ⟨fun _ _ _ => by rw [kept]; exact migrated.holds hsha, fun _ => kept, fun _ _ => kept⟩
  | dryRun kept readonly differs =>
    refine ⟨fun happly => ?_, fun _ => kept, fun _ _ => kept⟩
    rw [readonly] at happly
    cases happly
  | applied read names applies differs vacant migrated =>
    refine ⟨fun _ _ _ => migrated.holds hsha, ?_, ?_⟩
    · rintro (hreadonly | ⟨e, he⟩)
      · rw [applies] at hreadonly
        cases hreadonly
      · cases he
    · rintro ⟨table, htable, hrows⟩ -
      exact absurd (vacant.rows_eq_nil names htable) hrows
  | raised kept cause => exact ⟨(fun _ _ h => by cases h), fun _ => kept, fun _ _ => kept⟩

/-- A migration that applies and returns leaves a target that is found to be the snapshot. -/
theorem MigrationEnd.migrated (h : MigrationEnd mayFail sha snapshot true db s result)
    {report : MigrationReport} (hresult : result = .ok report) :
    Migrated sha snapshot s.committed := by
  cases h with
  | already kept migrated => rwa [kept]
  | dryRun _ readonly => cases readonly
  | applied _ _ _ _ _ migrated => exact migrated
  | raised => cases hresult

/-- A migration that finds the snapshot there changes nothing. -/
theorem MigrationEnd.repeated (h : MigrationEnd mayFail sha snapshot apply db s result)
    (hmigrated : Migrated sha snapshot db) : Repeated mayFail db s result := by
  cases h with
  | already kept _ =>
    refine ⟨kept, fun report h => ?_, fun _ => ⟨_, rfl⟩⟩
    cases h
    rfl
  | dryRun _ _ differs => exact absurd hmigrated differs
  | applied _ _ _ differs => exact absurd hmigrated differs
  | raised kept cause =>
    refine ⟨kept, (fun _ h => by cases h), fun hnever => ?_⟩
    rcases cause with hfail | hdiffers
    · exact absurd hfail hnever
    · exact absurd hmigrated hdiffers

/--
**A migration leaves the snapshot or what it found, and a migration after one that has succeeded
reports so and changes nothing.**
-/
theorem migrate_all_or_nothing (hsha : Unforgeable sha snapshot) {s s' : TargetState}
    (h : Prog.Ends (TargetStep mayFail) s (migrateSnapshot sha snapshot apply).run s' result) :
    AllOrNothing snapshot apply s.committed s' result ∧
      (apply = true → ∀ report, result = .ok report → ∀ mayFail again s'' result',
        Prog.Ends (TargetStep mayFail) s' (migrateSnapshot sha snapshot again).run s'' result' →
        Repeated mayFail s'.committed s'' result') := by
  have hend := migration_ends h
  refine ⟨hend.allOrNothing hsha, fun happly report hresult mayFail again s'' result' h' => ?_⟩
  subst happly
  exact (migration_ends h').repeated (hend.migrated hresult)

end Results

/-! ## A run on a target where nothing fails -/

theorem SameCatalogue.insert (db : TargetDb) (name : String) (columns : List String)
    (rows : List DbRow) : SameCatalogue db (db.insert name columns rows) := by
  unfold SameCatalogue TargetDb.insert
  rw [List.map_map]
  refine List.map_congr_left fun table _ => ?_
  show TargetTable.catalogue (if table.name = name then table.insert columns rows else table) = _
  split <;> rfl

/-- The target that the samples run on takes the steps of a target. -/
theorem serveTarget_step (mayFail : Prop) (s : TargetState) (c : TargetCall) :
    TargetStep mayFail s c (serveTarget s c).2 (serveTarget s c).1 := by
  obtain ⟨committed, working⟩ := s
  cases working with
  | none =>
    cases c with
    | tables => exact .tables (.refl _)
    | begin => exact .begin
    | rollback => exact .rollback
    | commit | lockTables | columns | uniqueKeys | rowCount | rows | insertRows
      | resetSequences => exact .closed rfl rfl
  | some db =>
    cases c with
    | tables => exact .tables (.refl _)
    | begin => exact .begin
    | rollback => exact .rollback
    | commit => exact .commit
    | lockTables => exact .lockTables
    | columns => exact .columns
    | uniqueKeys => exact .uniqueKeys
    | rowCount name =>
      unfold serveTarget
      cases hfound : db.table? name with
      | none => simpa [hfound] using .countMissing hfound
      | some table => simpa [hfound] using .rowCount hfound
    | rows name columns =>
      unfold serveTarget
      cases hfound : db.table? name with
      | none => simpa [hfound] using .rowsMissing hfound
      | some table => simpa [hfound] using .rows hfound (.refl _)
    | insertRows name columns rows => exact .insertRows (SameCatalogue.insert db name columns rows)
    | resetSequences => exact .resetSequences rfl

/-- Numbers with the same bytes are the same. -/
theorem eq_of_bytes {length m n : Nat} (hm : m < 256 ^ length) (hn : n < 256 ^ length)
    (h : ∀ i < length, UInt8.ofNat (m / 256 ^ i) = UInt8.ofNat (n / 256 ^ i)) : m = n := by
  have hmod : ∀ k ≤ length, m % 256 ^ k = n % 256 ^ k := by
    intro k
    induction k with
    | zero => simp [Nat.mod_one]
    | succ k ih =>
      intro hk
      have hbyte : m / 256 ^ k % 256 = n / 256 ^ k % 256 := by
        simpa using congrArg UInt8.toNat (h k hk)
      rw [Nat.mod_pow_succ, Nat.mod_pow_succ, ih (Nat.le_of_succ_le hk), hbyte]
  rw [← Nat.mod_eq_of_lt hm, ← Nat.mod_eq_of_lt hn]
  exact hmod length (le_refl length)

/-- Bytes name the number that they were made of. -/
theorem toBytes_injective {length m n : Nat} {bytes : Bytes} (hm : toBytes length m = .ok bytes)
    (hn : toBytes length n = .ok bytes) : m = n := by
  unfold toBytes at hm hn
  split at hm
  · next hmlt =>
    split at hn
    · next hnlt =>
      have hbytes := List.map_inj_left.mp ((Except.ok.inj hm).trans (Except.ok.inj hn).symm)
      refine eq_of_bytes hmlt hnlt fun i hi => hbytes i ?_
      rw [List.mem_reverse, List.mem_range]
      exact hi
    · cases hn
  · cases hm

theorem toBytes_length {length n : Nat} {bytes : Bytes} (h : toBytes length n = .ok bytes) :
    bytes.length = length := by
  unfold toBytes at h
  split at h
  · rw [← Except.ok.inj h, List.length_map, List.length_reverse, List.length_range]
  · cases h

/-- The bytes of a digest, before they are hashed. -/
theorem textsDigest_ok {sha : Sha256} {texts : List String} {digest : String}
    (h : textsDigest sha texts = .ok digest) :
    ∃ count total xor, toBytes 8 texts.length = .ok count ∧
      toBytes 32 (texts.foldl (Digest.addText sha) .zero).total = .ok total ∧
      sha.ofBytes (count ++ (total ++ xor)) = digest := by
  have hcount : ∀ (texts : List String) (start : Digest),
      (texts.foldl (Digest.addText sha) start).count = start.count + texts.length := by
    intro texts
    induction texts with
    | nil => exact fun _ => rfl
    | cons text texts ih =>
      intro start
      rw [List.foldl_cons, ih, List.length_cons]
      show start.count + 1 + texts.length = start.count + (texts.length + 1)
      omega
  unfold textsDigest Digest.hexdigest at h
  rw [hcount, Digest.zero, Nat.zero_add] at h
  cases hc : toBytes 8 texts.length with
  | error e =>
    rw [hc] at h
    cases h
  | ok count =>
    cases ht : toBytes 32 (texts.foldl (Digest.addText sha) ⟨0, 0, 0⟩).total with
    | error e =>
      rw [hc, ht] at h
      cases h
    | ok total =>
      cases hx : toBytes 32 (texts.foldl (Digest.addText sha) ⟨0, 0, 0⟩).xor with
      | error e =>
        rw [hc, ht, hx] at h
        cases h
      | ok xor =>
        rw [hc, ht, hx] at h
        refine ⟨count, total, xor, rfl, ht, ?_⟩
        rw [← List.append_assoc]
        exact Except.ok.inj h

namespace OneRow

def rowHash : Nat := 80361470897372224981551572780089760596410992407539349862915468287848323784143

/-- The bytes that are hashed for a table with the row `[1,"x"]`. -/
def oneRow : Bytes :=
  [0, 0, 0, 0, 0, 0, 0, 1] ++ ((List.range 32).reverse.map fun i => UInt8.ofNat (rowHash / 256 ^ i)) ++
    (List.range 32).reverse.map fun i => UInt8.ofNat (rowHash / 256 ^ i)

/-- The digests of what the run hashes. -/
def sha : Sha256 where
  ofText text := if text = "[1,\"x\"]" then rowHash else 0
  ofBytes bytes :=
    if bytes = List.replicate 72 0 then
      "834a709ba2534ebe3ee1397fd4f7bd288b2acc1d20a08d6c862dcd99b6f04400"
    else if bytes = oneRow then
      "24ae3c602eb6c58494e03aa240856559c4529589f471713baef4ce4fa80f7bd0"
    else ""

def columns : List Column :=
  [⟨"id", "INTEGER", "int8", false, false⟩, ⟨"value", "TEXT", "text", false, false⟩]

def keys : Finset UniqueKey := {⟨["id"], none⟩}

def tableName (i : Nat) : String := "table_" ++ toString i

/-- 23 tables, the first of them with a row. -/
def snapshot : Snapshot where
  tables := (List.range 23).map fun i =>
    { name := tableName i, columns, hidden := false, keys := .ok keys
      rows := if i = 0 then [[.int 1, .text "x"]] else [] }
  nodup := by decide +kernel

/-- The same tables without rows. -/
def emptyTarget : TargetDb where
  tables := (List.range 23).map fun i =>
    { name := tableName i, columns, keys, rows := []
      nodup := by decide
      width := fun _ h => by cases h }
  nodup := by decide +kernel
  sequences := []

def ended : TargetState × Except Raised MigrationReport :=
  (migrateSnapshot sha snapshot true).run.exec serveTarget ⟨emptyTarget, none⟩

def modeOf : Except Raised MigrationReport → Option Mode
  | .ok report => some report.mode
  | .error _ => none

theorem ended_applied : modeOf ended.2 = some .applied := by decide +kernel

/-- What has the digest of no rows is the bytes of no rows. -/
theorem bytes_of_empty {bytes : Bytes}
    (h : sha.ofBytes bytes = "834a709ba2534ebe3ee1397fd4f7bd288b2acc1d20a08d6c862dcd99b6f04400") :
    bytes = List.replicate 72 0 := by
  simp only [sha] at h
  split at h
  · next hzero => exact hzero
  · split at h
    · exact absurd h (by decide)
    · exact absurd h (by decide)

/-- What has the digest of the one row is its bytes. -/
theorem bytes_of_oneRow {bytes : Bytes}
    (h : sha.ofBytes bytes = "24ae3c602eb6c58494e03aa240856559c4529589f471713baef4ce4fa80f7bd0") :
    bytes = oneRow := by
  simp only [sha] at h
  split at h
  · exact absurd h (by decide)
  · split at h
    · next hone => exact hone
    · exact absurd h (by decide)

/-- The digest of no row, of a table that has none. -/
theorem perm_of_empty {texts : List String} {digest : String}
    (hempty : textsDigest sha [] = .ok digest) (h : textsDigest sha texts = .ok digest) :
    texts.Perm [] := by
  have hdigest : textsDigest sha [] =
      .ok "834a709ba2534ebe3ee1397fd4f7bd288b2acc1d20a08d6c862dcd99b6f04400" := by decide +kernel
  rw [hdigest] at hempty
  obtain ⟨count, total, xor, hcount, htotal, hbytes⟩ := textsDigest_ok h
  rw [← Except.ok.inj hempty] at hbytes
  have hzero : toBytes 8 0 = .ok (List.replicate 8 0) := by decide +kernel
  have hopens : count = List.replicate 8 0 := by
    have hall := bytes_of_empty hbytes
    have htake := congrArg (List.take 8) hall
    rw [List.take_left' (toBytes_length hcount)] at htake
    exact htake
  rw [hopens] at hcount
  rw [List.length_eq_zero_iff.mp (toBytes_injective hcount hzero)]

/-- What has the digest of the one row is that row. -/
theorem perm_of_row {texts : List String} {digest : String}
    (hrow : textsDigest sha ["[1,\"x\"]"] = .ok digest) (h : textsDigest sha texts = .ok digest) :
    texts.Perm ["[1,\"x\"]"] := by
  have hdigest : textsDigest sha ["[1,\"x\"]"] =
      .ok "24ae3c602eb6c58494e03aa240856559c4529589f471713baef4ce4fa80f7bd0" := by decide +kernel
  rw [hdigest] at hrow
  obtain ⟨count, total, xor, hcount, htotal, hbytes⟩ := textsDigest_ok h
  rw [← Except.ok.inj hrow] at hbytes
  have hall := bytes_of_oneRow hbytes
  have hone : toBytes 8 1 = .ok (oneRow.take 8) := by decide +kernel
  have hsum : toBytes 32 rowHash = .ok ((oneRow.drop 8).take 32) := by decide +kernel
  have hopens : count = oneRow.take 8 := by
    rw [← hall, List.take_left' (toBytes_length hcount)]
  have hmiddle : total = (oneRow.drop 8).take 32 := by
    rw [← hall, List.drop_left' (toBytes_length hcount), List.take_left' (toBytes_length htotal)]
  rw [hopens] at hcount
  rw [hmiddle] at htotal
  obtain ⟨text, rfl⟩ := List.length_eq_one_iff.mp (toBytes_injective hcount hone)
  have hhash : sha.ofText text % modulus = rowHash := by
    simpa [Digest.addText, Digest.zero] using toBytes_injective htotal hsum
  -- any other text hashes to zero
  have htext : text = "[1,\"x\"]" := by
    by_contra hother
    simp only [sha, if_neg hother] at hhash
    exact absurd hhash (by decide +kernel)
  rw [htext]

theorem unforgeable : Unforgeable sha snapshot := by
  intro table htable texts digest hsource h
  obtain ⟨i, -, rfl⟩ := List.mem_map.mp htable
  by_cases hi : i = 0
  · subst hi
    exact perm_of_row hsource h
  · simp only [if_neg hi, List.map_nil] at hsource ⊢
    exact perm_of_empty hsource h

/-- The same migration once more. -/
def again : TargetState × Except Raised MigrationReport :=
  (migrateSnapshot sha snapshot true).run.exec serveTarget ended.1

theorem migrate_all_or_nothing_applied :
    AllOrNothing snapshot true emptyTarget ended.1 ended.2 ∧
      Repeated False ended.1.committed again.1 again.2 := by
  have hserve := serveTarget_step False
  obtain ⟨hend, hrepeated⟩ := migrate_all_or_nothing unforgeable
    (Prog.ends_exec hserve (migrateSnapshot sha snapshot true).run ⟨emptyTarget, none⟩)
  refine ⟨hend, ?_⟩
  cases hresult : ended.2 with
  | error e =>
    have happlied := ended_applied
    rw [hresult] at happlied
    cases happlied
  | ok report => exact hrepeated rfl report hresult False true _ _ (Prog.ends_exec hserve _ _)

end OneRow

end Migration

end InboxServer
