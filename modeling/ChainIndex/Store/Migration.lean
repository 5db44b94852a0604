import ChainIndex.Number.Checksum
import ChainIndex.Store.Schema

/-!
# Migrations

The database keeps a record of every migration that was applied to it, with a digest of its
script. A run applies what is missing, each migration in one transaction with its record. It stops
before it changes anything if a migration was left unfinished, is not known here, or was applied
with another script.
-/

namespace ChainIndex.Store

open Database (Query Statement Value execute all first one)

/-- A numbered script. -/
structure Migration where
  version : Int
  description : String
  script : String
  /-- The SHA-384 digest of the script in hexadecimal digits. -/
  digest : String
deriving DecidableEq, Repr

namespace Migration

/-- The migration that creates the fixed tables. -/
def init : Migration where
  version := 1
  description := "init"
  script := Schema.script
  digest := "4e42ffa8ec2d3dc5b7b643f230d607796662ba32dc7b4d91b3311abccaa22ac2" ++
    "123c62ec1706f4ed424ee422e879196b"

/-- All migrations, in the order in which they are applied. -/
def bundle : List Migration := [init]

/-! ## Statements -/

/-- Find out the name of the database, which names the lock. -/
def databaseName : Statement := ⟨"SELECT current_database()", []⟩

/-- The number of the lock of a database, which all runs on it agree in. -/
def lockNumber (database : String) : Int :=
  1026731422 * (Checksum.ofText database).toNat

/-- Keep other runs on a database out. -/
def lock (database : String) : Statement :=
  ⟨"SELECT pg_advisory_lock($1)", [.int (lockNumber database)]⟩

/-- Let other runs on a database in. -/
def unlock (database : String) : Statement :=
  ⟨"SELECT pg_advisory_unlock($1)", [.int (lockNumber database)]⟩

/-- Create the table of records. -/
def createRecords : Statement :=
  ⟨"CREATE TABLE IF NOT EXISTS _sqlx_migrations ( version BIGINT PRIMARY KEY, description TEXT " ++
      "NOT NULL, installed_on TIMESTAMPTZ NOT NULL DEFAULT now(), success BOOLEAN NOT NULL, " ++
      "checksum BYTEA NOT NULL, execution_time BIGINT NOT NULL );",
    []⟩

/-- A migration that was left unfinished. -/
def unfinished : Statement :=
  ⟨"SELECT version FROM _sqlx_migrations WHERE success = false ORDER BY version LIMIT 1", []⟩

/-- The migrations that were applied. -/
def applied : Statement :=
  ⟨"SELECT version, checksum FROM _sqlx_migrations ORDER BY version", []⟩

/-- Record a migration. -/
def record (m : Migration) : Statement :=
  ⟨"INSERT INTO _sqlx_migrations ( version, description, success, checksum, execution_time ) " ++
      "VALUES ( $1, $2, TRUE, $3, -1 )",
    [.int m.version, .text m.description, .text m.digest]⟩

/-- Record how long a migration took. -/
def recordTime (m : Migration) : Statement :=
  ⟨"UPDATE _sqlx_migrations SET execution_time = $1 WHERE version = $2", [.int 0, .int m.version]⟩

/-! ## Runs -/

/-- A run that stops for the state of the database. -/
def stopped : Error := .other "the database does not match the migrations"

/-- Read the name of a database. -/
def readName : List Value → Option String
  | .text name :: _ => some name
  | _ => none

/-- Read the version of a record. -/
def readVersion : List Value → Option Int
  | .int version :: _ => some version
  | _ => none

/-- Read the version and the digest of a record. -/
def readApplied : List Value → Option (Int × String)
  | .int version :: .text digest :: _ => some (version, digest)
  | _ => none

/-- Apply a migration. -/
def apply (m : Migration) : Query Unit := do
  Database.atomically do
    execute ⟨m.script, []⟩
    execute m.record
  execute m.recordTime

/-- Apply the migrations that were not applied; of several records of a version the last one
counts. -/
def applyMissing (records : List (Int × String)) : List Migration → Query Unit
  | [] => pure ()
  | m :: rest => do
    match records.reverse.lookup m.version with
    | none => apply m
    | some digest => if digest = m.digest then pure () else throw stopped
    applyMissing records rest

/-- Bring a database up to date. -/
def run (bundle : List Migration) : Query Unit := do
  execute (lock (← one readName databaseName))
  execute createRecords
  -- nothing has been changed up to here but the table of records
  if (← first readVersion unfinished).isSome then throw stopped else pure ()
  let records ← all readApplied applied
  -- a record that is not known here may belong to a later bundle
  if records.all fun r => bundle.any (·.version == r.1) then pure () else throw stopped
  applyMissing records bundle
  execute (unlock (← one readName databaseName))

end Migration

end ChainIndex.Store
