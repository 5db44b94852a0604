import ChainIndex.Simulation.Database
import ChainIndex.Store.Migration

/-!
# A database that is migrated

A scripted database with the records of the migrations that were applied to it.
-/

namespace ChainIndex.Simulation

open Database (Value)
open Store (Migration)

/-- A rule that answers one statement with rows. -/
def rowsOf (statement : Database.Statement) (rows : List (List Value)) : Rule where
  part := statement.text
  binds := none
  uses := none
  outcome := .ok rows

/-- A database with some migrations applied, one of them perhaps left unfinished; a digest that is
left out is the right one of the first migration. -/
def migrated (applied : List (Int × Option String)) (unfinished : Option Int) (extra : List Rule) :
    ScriptedDatabase where
  rules := extra ++ [
    rowsOf Migration.databaseName [[.text "postgres"]],
    rowsOf Migration.unfinished ((unfinished.map fun version => [.int version]).toList),
    rowsOf Migration.applied (applied.map fun (version, digest) =>
      [.int version, .text (digest.getD Migration.init.digest)])]

/-- The outcome of bringing a database up to date, and the statements that were executed. -/
def migrate (db : ScriptedDatabase) : Except Error Unit × List Database.Statement :=
  let (outcome, db) := (Migration.run Migration.bundle).run ScriptedDatabase.answer db
  (outcome, db.log)

/-- The scripts among some statements. -/
def scriptsOf (log : List Database.Statement) : List String :=
  (log.filter fun s => Migration.bundle.any (·.script == s.text)).map (Database.oneLine ·.text)

/-- The migrations that some statements record. -/
def recordsOf (log : List Database.Statement) : List Migration :=
  log.filterMap fun s => Migration.bundle.find? (·.record == s)

end ChainIndex.Simulation
