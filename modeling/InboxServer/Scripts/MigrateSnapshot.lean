import InboxServer.Infra.Contract
import InboxServer.Api.Tables
import InboxServer.Domain.Json

/-!
# The migration of a D1 snapshot to PostgreSQL

`scripts/migrate_d1_snapshot.py`: the manifests of both sides, their comparison, and
`migrate_snapshot`. What the catalogues say of a table (its columns and unique keys) is data here,
and SHA-256 is a parameter. The tables are those that the script does not leave out as metadata.
-/

namespace InboxServer

namespace Migration

open Infra

/-- The text of an exception. -/
abbrev Raised := String

/-! ## Values -/

def isFloatChar (c : Char) : Bool := "0123456789+-.eNaInfity".toList.contains c

/-- What tells the text of a float from that of an integer. -/
def isFloatMark (c : Char) : Bool := ".eNI".toList.contains c

/-- A float, carried by its text as `json.dumps` writes it: `1.0`, `-5e-324`, `NaN`. -/
structure FloatText where
  text : String
  chars : text.toList.all isFloatChar = true
  marked : text.toList.any isFloatMark = true

/-- What a column of a row holds. -/
inductive DbValue where
  | null
  | int (value : Int)
  | real (value : FloatText)
  | text (value : String)
  | blob (value : Bytes)

def hexDigit (n : Nat) : Char := "0123456789abcdef".toList.getD n '0'

/-- `value.hex()` -/
def hex (bytes : Bytes) : String :=
  String.ofList (bytes.flatMap fun byte => [hexDigit (byte.toNat / 16), hexDigit (byte.toNat % 16)])

/-- The text of `_canonical_value(value)`, as `json.dumps` writes it. -/
def DbValue.encoded : DbValue → String
  | null => "null"
  | int value => toString value
  | real value => value.text
  | text value => Json.quote value
  | blob value => "\x7b" ++ Json.quote "$bytes" ++ ":" ++ Json.quote (hex value) ++ "\x7d"

/-- `allow_nan=False` refuses the others. -/
def DbValue.isFinite : DbValue → Bool
  | real value => !value.text.toList.any "NI".toList.contains
  | null | int _ | text _ | blob _ => true

abbrev DbRow := List DbValue

def rowText (row : DbRow) : String := "[" ++ ",".intercalate (row.map DbValue.encoded) ++ "]"

/-- `json.dumps([_canonical_value(value) for value in row], ...)` -/
def encodeRow (row : DbRow) : Except Raised String :=
  if row.all DbValue.isFinite then .ok (rowText row)
  else .error "Out of range float values are not JSON compliant"

/-! ## Digests -/

structure Sha256 where
  /-- The digest of a text in UTF-8, as a big-endian integer. -/
  ofText : String → Nat
  /-- `hashlib.sha256(bytes).hexdigest()` -/
  ofBytes : Bytes → String

def modulus : Nat := 2 ^ 256

/-- `_Digest` -/
structure Digest where
  count : Nat
  total : Nat
  xor : Nat

def Digest.zero : Digest := ⟨0, 0, 0⟩

/-- What `add(row)` does once the row is encoded. -/
def Digest.addText (sha : Sha256) (digest : Digest) (encoded : String) : Digest where
  count := digest.count + 1
  total := (digest.total + sha.ofText encoded) % modulus
  xor := digest.xor ^^^ sha.ofText encoded

/-- `add(row)` -/
def Digest.add (sha : Sha256) (digest : Digest) (row : DbRow) : Except Raised Digest := do
  let encoded ← encodeRow row
  return digest.addText sha encoded

/-- `value.to_bytes(length, "big")` -/
def toBytes (length value : Nat) : Except Raised Bytes :=
  if value < 256 ^ length then
    .ok ((List.range length).reverse.map fun i => UInt8.ofNat (value / 256 ^ i))
  else .error "int too big to convert"

/-- `hexdigest()` -/
def Digest.hexdigest (sha : Sha256) (digest : Digest) : Except Raised String := do
  let count ← toBytes 8 digest.count
  let total ← toBytes 32 digest.total
  let xor ← toBytes 32 digest.xor
  return sha.ofBytes (count ++ total ++ xor)

/-- `row_digest(rows)` -/
def rowDigest (sha : Sha256) (rows : List DbRow) : Except Raised String := do
  let digest ← rows.foldlM (Digest.add sha) .zero
  digest.hexdigest sha

/-! ## Manifests -/

structure Column where
  name : String
  sqliteType : String
  postgresType : String
  identity : Bool
  sequenceDefault : Bool
  deriving DecidableEq

structure UniqueKey where
  columns : List String
  predicate : Option String
  deriving DecidableEq

structure TableManifest where
  columns : List Column
  keys : Finset UniqueKey
  count : Nat
  digest : String
  deriving DecidableEq

abbrev Manifest := Entries TableManifest

/-- A table of the snapshot; reading its unique keys from the catalogue may raise. -/
structure SourceTable where
  name : String
  columns : List Column
  hidden : Bool
  keys : Except Raised (Finset UniqueKey)
  rows : List DbRow

/-- The frozen snapshot, its tables in the order of their names. -/
structure Snapshot where
  tables : List SourceTable
  nodup : (tables.map SourceTable.name).Nodup

def expectedTableCount : Nat := 23

def sourceTableManifest (sha : Sha256) (table : SourceTable) : Except Raised TableManifest := do
  if table.hidden then .error s!"table {table.name} uses hidden or generated SQLite columns"
  if table.columns = [] then .error s!"table {table.name} has no columns"
  let digest ← rowDigest sha table.rows
  let keys ← table.keys
  return { columns := table.columns, keys, count := table.rows.length, digest }

def namedManifest (sha : Sha256) (table : SourceTable) : Except Raised (String × TableManifest) := do
  let manifest ← sourceTableManifest sha table
  return (table.name, manifest)

/-- `_source_manifest(connection)` -/
def sourceManifest (sha : Sha256) (snapshot : Snapshot) : Except Raised Manifest :=
  if snapshot.tables.length ≠ expectedTableCount then
    .error "snapshot must contain exactly 23 user tables"
  else snapshot.tables.mapM (namedManifest sha)

inductive Affinity where
  | integer | text | blob | real
  deriving DecidableEq

def Affinity.name : Affinity → String
  | integer => "integer"
  | text => "text"
  | blob => "blob"
  | real => "real"

def hasToken (token value : String) : Bool := decide (token.toList <:+: value.toList)

/-- `_sqlite_affinity(declared_type)` -/
def sqliteAffinity (declaredType : String) : Except Raised Affinity :=
  let value := String.ofList (declaredType.toList.map Char.toUpper)
  if hasToken "INT" value then .ok .integer
  else if ["CHAR", "CLOB", "TEXT"].any (hasToken · value) then .ok .text
  else if hasToken "BLOB" value || value = "" then .ok .blob
  else if ["REAL", "FLOA", "DOUB"].any (hasToken · value) then .ok .real
  else .error s!"unsupported SQLite column type: {declaredType}"

def Affinity.accepted : Affinity → List String
  | integer => ["int2", "int4", "int8"]
  | text => ["text"]
  | blob => ["bytea"]
  | real => ["float8"]

/-- `_compatible(column, table)`, of a column with the types of both sides. -/
def compatible (table : String) (source target : Column) : Except Raised Unit := do
  let expected ← sqliteAffinity source.sqliteType
  if expected.accepted.contains target.postgresType then .ok ()
  else .error (s!"incompatible type for {table}.{source.name}: " ++
    s!"SQLite {expected.name} to PostgreSQL {target.postgresType}")

/-- The checks of one table in `_validate_schema`. -/
def validateTable (target : Manifest) (entry : String × TableManifest) : Except Raised Unit :=
  match target.lookup entry.1 with
  | none => .error s!"KeyError: {entry.1}"
  | some manifest =>
    if entry.2.columns.map Column.name ≠ manifest.columns.map Column.name then
      .error s!"source and target columns differ for table {entry.1}"
    else if entry.2.keys ≠ manifest.keys then
      .error s!"source and target unique keys differ for table {entry.1}"
    else (entry.2.columns.zip manifest.columns).forM fun pair => compatible entry.1 pair.1 pair.2

/-- `_validate_schema(source, target)` -/
def validateSchema (source target : Manifest) : Except Raised Unit :=
  if (source.map Prod.fst).toFinset ≠ (target.map Prod.fst).toFinset then
    .error "source and target table names differ"
  else source.forM (validateTable target)

/-- `_same_data(source, target)` -/
def sameData (source target : Manifest) : Bool :=
  source.all fun entry => match target.lookup entry.1 with
    | none => false
    | some manifest => entry.2.count = manifest.count && entry.2.digest = manifest.digest

inductive Mode where
  | alreadyMigrated | dryRun | applied
  deriving DecidableEq

structure MigrationReport where
  mode : Mode
  tables : List (String × Nat × String)
  deriving DecidableEq

/-- `_report(mode, manifest)` -/
def report (mode : Mode) (manifest : Manifest) : MigrationReport where
  mode
  tables := manifest.map fun entry => (entry.1, entry.2.count, entry.2.digest)

/-! ## The migration -/

/-- The calls of a `Target`, and the ends of its transaction. -/
inductive TargetCall where
  | tables
  | begin (readonly : Bool)
  | commit
  | rollback
  | lockTables (tables : List String)
  | columns (table : String)
  | uniqueKeys (table : String)
  | rowCount (table : String)
  | rows (table : String) (columns : List String)
  | insertRows (table : String) (columns : List String) (rows : List DbRow)
  | resetSequences (table : String) (columns : List Column)

abbrev TargetCall.Result : TargetCall → Type
  | tables => List String
  | columns _ => List Column
  | uniqueKeys _ => Finset UniqueKey
  | rowCount _ => Nat
  | rows .. => List DbRow
  | begin _ | commit | rollback | lockTables _ | insertRows .. | resetSequences .. => Unit

abbrev TargetCall.Answer (c : TargetCall) : Type := Except Raised c.Result

abbrev Migrating := ExceptT Raised (Prog TargetCall TargetCall.Answer)

def ask (c : TargetCall) : Migrating c.Result := ExceptT.mk (Prog.perform c)

def check {α : Type} (x : Except Raised α) : Migrating α := ExceptT.mk (pure x)

/-- `async with target.transaction(readonly=readonly)` -/
def transaction {α : Type} (readonly : Bool) (body : Migrating α) : Migrating α :=
  ExceptT.mk do
    match ← Prog.perform (TargetCall.begin readonly) with
    | .error e => return .error e
    | .ok () =>
      match ← body.run with
      | .error e => do
        let _ ← Prog.perform TargetCall.rollback
        return .error e
      | .ok a =>
        match ← Prog.perform TargetCall.commit with
        | .error e => return .error e
        | .ok () => return .ok a

/-- The rows of a table as a digest, counted separately, and its unique keys. -/
def readTable (sha : Sha256) (table : String) (columns : List Column) : Migrating TableManifest := do
  let rows ← ask (.rows table (columns.map Column.name))
  let digest ← check (rowDigest sha rows)
  let count ← ask (.rowCount table)
  let keys ← ask (.uniqueKeys table)
  return { columns, keys, count, digest }

def checkColumns (table : String) (columns : List Column) : Except Raised Unit :=
  if columns = [] then .error s!"target table {table} has no columns"
  else if columns.any (·.sqliteType = "GENERATED") then
    .error s!"target table {table} has a generated column"
  else .ok ()

def targetTableManifest (sha : Sha256) (table : String) : Migrating TableManifest := do
  let columns ← ask (.columns table)
  check (checkColumns table columns)
  readTable sha table columns

/-- `_target_manifest(target, schema, tables)` -/
def targetManifest (sha : Sha256) : List String → Migrating Manifest
  | [] => return []
  | table :: tables => do
    let manifest ← targetTableManifest sha table
    let rest ← targetManifest sha tables
    return (table, manifest) :: rest

def batchSize : Nat := 500

/-- `while batch := cursor.fetchmany(BATCH_SIZE)` -/
def insertBatches (table : String) (columns : List String) : List (List DbRow) → Migrating Unit
  | [] => return ()
  | batch :: batches => do
    ask (.insertRows table columns batch)
    insertBatches table columns batches

/-- The loop over the tables that copies their rows. -/
def copyTables : List SourceTable → Migrating Unit
  | [] => return ()
  | table :: tables => do
    insertBatches table.name (table.columns.map Column.name) (table.rows.toChunks batchSize)
    copyTables tables

def resetTables : List String → Migrating Unit
  | [] => return ()
  | table :: tables => do
    let columns ← ask (.columns table)
    ask (.resetSequences table columns)
    resetTables tables

/-- The copy, and the comparison after it. -/
def importSnapshot (sha : Sha256) (snapshot : Snapshot) (source : Manifest) :
    Migrating MigrationReport := do
  copyTables snapshot.tables
  let imported ← targetManifest sha (source.map Prod.fst)
  check (validateSchema source imported)
  check (if sameData source imported then .ok ()
    else .error "post-import row count or content digest mismatch")
  resetTables (source.map Prod.fst)
  return report .applied source

/-- What the comparison before the copy decides. -/
def afterComparison (sha : Sha256) (snapshot : Snapshot) (apply : Bool) (source target : Manifest) :
    Migrating MigrationReport :=
  if sameData source target then return report .alreadyMigrated source
  else if !target.all (·.2.count = 0) then
    check (.error "target contains different non-empty data")
  else if !apply then return report .dryRun source
  else importSnapshot sha snapshot source

/-- The body of the transaction. -/
def inTransaction (sha : Sha256) (snapshot : Snapshot) (apply : Bool) (source : Manifest) :
    Migrating MigrationReport := do
  if apply then ask (.lockTables (source.map Prod.fst))
  let target ← targetManifest sha (source.map Prod.fst)
  check (validateSchema source target)
  afterComparison sha snapshot apply source target

/-- `migrate_snapshot(source, target, apply=apply)` -/
def migrateSnapshot (sha : Sha256) (snapshot : Snapshot) (apply : Bool) :
    Migrating MigrationReport := do
  let source ← check (sourceManifest sha snapshot)
  let tables ← ask .tables
  check (if tables.toFinset ≠ (source.map Prod.fst).toFinset then
    .error "target schema must contain exactly the snapshot's 23 tables" else .ok ())
  transaction (!apply) (inTransaction sha snapshot apply source)

/-! ## The target -/

/-- A table of the target, each row as wide as the table. -/
structure TargetTable where
  name : String
  columns : List Column
  keys : Finset UniqueKey
  rows : List DbRow
  nodup : (columns.map Column.name).Nodup
  width : ∀ row ∈ rows, row.length = columns.length

/-- The tables of the schema, and the next values of its sequences. -/
structure TargetDb where
  tables : List TargetTable
  nodup : (tables.map TargetTable.name).Nodup
  sequences : List (String × Int)

def TargetDb.table? (db : TargetDb) (name : String) : Option TargetTable :=
  db.tables.find? fun table => table.name = name

/-- The columns of a table, of which the catalogue has none where there is no table. -/
def TargetDb.columnsOf (db : TargetDb) (name : String) : List Column :=
  (db.table? name).elim [] TargetTable.columns

def TargetDb.keysOf (db : TargetDb) (name : String) : Finset UniqueKey :=
  (db.table? name).elim ∅ TargetTable.keys

/-- A row, as `SELECT` with a list of columns shows it. -/
def selectColumns (columns : List Column) (names : List String) (row : DbRow) : DbRow :=
  names.map fun name =>
    ((columns.zip row).find? fun entry => entry.1.name = name).elim .null Prod.snd

/-- What the catalogue says of a table. -/
def TargetTable.catalogue (table : TargetTable) : String × List Column × Finset UniqueKey :=
  (table.name, table.columns, table.keys)

/-- Everything but the rows and the sequences is the same. -/
def SameCatalogue (db db' : TargetDb) : Prop :=
  db'.tables.map TargetTable.catalogue = db.tables.map TargetTable.catalogue

/-- What is committed, and what the open transaction sees. -/
structure TargetState where
  committed : TargetDb
  working : Option TargetDb

def TargetCall.inTransaction : TargetCall → Bool
  | tables | begin _ | rollback => false
  | commit | lockTables _ | columns _ | uniqueKeys _ | rowCount _ | rows .. | insertRows ..
  | resetSequences .. => true

/--
What a target does. Any call may fail where failures are allowed, and leaves what is committed as it
was. A copy may store any rows whatever; nothing else changes the rows of an open transaction.
-/
inductive TargetStep (mayFail : Prop) : TargetState → (c : TargetCall) → c.Answer → TargetState → Prop
  | fails {s : TargetState} {c : TargetCall} {e : Raised} {working : Option TargetDb}
      (failure : mayFail) : TargetStep mayFail s c (.error e) ⟨s.committed, working⟩
  | closed {s : TargetState} {c : TargetCall} {e : Raised} (none : s.working = none)
      (inside : c.inTransaction = true) : TargetStep mayFail s c (.error e) s
  | tables {s : TargetState} {names : List String}
      (all : names.Perm (s.committed.tables.map TargetTable.name)) :
      TargetStep mayFail s .tables (.ok names) s
  | begin {s : TargetState} {readonly : Bool} :
      TargetStep mayFail s (.begin readonly) (.ok ()) ⟨s.committed, some s.committed⟩
  | commit {committed db : TargetDb} :
      TargetStep mayFail ⟨committed, some db⟩ .commit (.ok ()) ⟨db, none⟩
  | rollback {s : TargetState} {answer : Except Raised Unit} :
      TargetStep mayFail s .rollback answer ⟨s.committed, none⟩
  | lockTables {committed db : TargetDb} {names : List String} :
      TargetStep mayFail ⟨committed, some db⟩ (.lockTables names) (.ok ()) ⟨committed, some db⟩
  | columns {committed db : TargetDb} {name : String} :
      TargetStep mayFail ⟨committed, some db⟩ (.columns name) (.ok (db.columnsOf name))
        ⟨committed, some db⟩
  | uniqueKeys {committed db : TargetDb} {name : String} :
      TargetStep mayFail ⟨committed, some db⟩ (.uniqueKeys name) (.ok (db.keysOf name))
        ⟨committed, some db⟩
  | rowCount {committed db : TargetDb} {table : TargetTable} {name : String}
      (found : db.table? name = some table) :
      TargetStep mayFail ⟨committed, some db⟩ (.rowCount name) (.ok table.rows.length)
        ⟨committed, some db⟩
  | rows {committed db : TargetDb} {table : TargetTable} {name : String} {columns : List String}
      {rows : List DbRow} (found : db.table? name = some table)
      (all : rows.Perm (table.rows.map (selectColumns table.columns columns))) :
      TargetStep mayFail ⟨committed, some db⟩ (.rows name columns) (.ok rows) ⟨committed, some db⟩
  | countMissing {committed db : TargetDb} {name : String} {e : Raised}
      (missing : db.table? name = none) :
      TargetStep mayFail ⟨committed, some db⟩ (.rowCount name) (.error e) ⟨committed, some db⟩
  | rowsMissing {committed db : TargetDb} {name : String} {columns : List String} {e : Raised}
      (missing : db.table? name = none) :
      TargetStep mayFail ⟨committed, some db⟩ (.rows name columns) (.error e) ⟨committed, some db⟩
  | insertRows {committed db db' : TargetDb} {name : String} {columns : List String}
      {rows : List DbRow} (catalogue : SameCatalogue db db') :
      TargetStep mayFail ⟨committed, some db⟩ (.insertRows name columns rows) (.ok ())
        ⟨committed, some db'⟩
  | resetSequences {committed db db' : TargetDb} {name : String} {columns : List Column}
      (tables : db'.tables = db.tables) :
      TargetStep mayFail ⟨committed, some db⟩ (.resetSequences name columns) (.ok ())
        ⟨committed, some db'⟩

/-! ### A target that stores what it is given -/

/-- `INSERT INTO table (columns) VALUES ...` -/
def TargetTable.insert (columns : List String) (rows : List DbRow) (table : TargetTable) :
    TargetTable :=
  { table with
    rows := table.rows ++ rows.map fun row => table.columns.map fun column =>
      ((columns.zip row).lookup column.name).getD .null
    width := by
      intro row hrow
      rcases List.mem_append.mp hrow with hold | hnew
      · exact table.width row hold
      · obtain ⟨_, -, rfl⟩ := List.mem_map.mp hnew
        rw [List.length_map] }

def TargetDb.insert (name : String) (columns : List String) (rows : List DbRow) (db : TargetDb) :
    TargetDb :=
  { db with
    tables := db.tables.map fun table =>
      if table.name = name then table.insert columns rows else table
    nodup := by
      rw [List.map_map, List.map_congr_left (g := TargetTable.name) fun table _ => by
        show TargetTable.name (if table.name = name then table.insert columns rows else table) = _
        split <;> rfl]
      exact db.nodup }

/-- A target on which nothing fails. -/
def serveTarget (s : TargetState) (c : TargetCall) : TargetState × c.Answer :=
  match c, s.working with
  | .tables, _ => (s, .ok (s.committed.tables.map TargetTable.name))
  | .begin _, _ => (⟨s.committed, some s.committed⟩, .ok ())
  | .rollback, _ => (⟨s.committed, none⟩, .ok ())
  | .commit, some db => (⟨db, none⟩, .ok ())
  | .lockTables _, some _ => (s, .ok ())
  | .columns name, some db => (s, .ok (db.columnsOf name))
  | .uniqueKeys name, some db => (s, .ok (db.keysOf name))
  | .rowCount name, some db =>
    (s, (db.table? name).elim (.error "undefined table") fun table => .ok table.rows.length)
  | .rows name columns, some db =>
    (s, (db.table? name).elim (.error "undefined table") fun table =>
      .ok (table.rows.map (selectColumns table.columns columns)))
  | .insertRows name columns rows, some db =>
    (⟨s.committed, some (db.insert name columns rows)⟩, .ok ())
  | .resetSequences .., some _ => (s, .ok ())
  | .commit, none | .lockTables _, none | .columns _, none | .uniqueKeys _, none
  | .rowCount _, none | .rows .., none | .insertRows .., none | .resetSequences .., none =>
    (s, .error "no transaction")

end Migration

end InboxServer
