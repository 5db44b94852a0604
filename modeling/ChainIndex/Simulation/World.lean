import ChainIndex.Observer.Standard
import ChainIndex.Scan.Loop
import ChainIndex.Simulation.Database
import ChainIndex.Simulation.Node
import ChainIndex.Store.Database
import ChainIndex.Store.Memory

/-!
# A world to scan in

A node and a store in memory, or a scripted database in place of the store, together with the
parts of a scanner, each with a memory of its own. `perform` runs a procedure on behalf of one
part.
-/

namespace ChainIndex.Simulation

open Scan (Cache Procedure)

/-- The parts that have a memory of their own. -/
inductive Component where
  | scanner
  /-- A registry of wide tables. -/
  | tables
  /-- A writer of operations. -/
  | operations
  /-- A refresher of balances. -/
  | refresher
  /-- The single observers. -/
  | observers
  /-- A pipeline of observers. -/
  | pipeline
deriving DecidableEq, Repr

/-- The node, the stores and the scanner's parts. -/
structure World where
  node : ScriptedNode := {}
  memory : Store.Memory := {}
  /-- The database that takes the place of the store in memory, if there is one. -/
  database : Option ScriptedDatabase := none
  caches : Component → Cache := fun _ => {}
  interval : Nat := 100
  caller : String := "pk"

/-- What a running procedure sees of a world. -/
structure Stage where
  node : ScriptedNode
  memory : Store.Memory
  database : Option ScriptedDatabase
  cache : Cache

namespace Stage

/-- Ask the store of a stage. -/
def askStore (request : Store.Request) (s : Stage) : Except Error request.Result × Stage :=
  match s.database with
  | none =>
    let (reply, memory) := Store.Memory.answer request s.memory
    (reply, { s with memory })
  | some db =>
    let (reply, db) := (Store.ofDatabase request).run ScriptedDatabase.answer db
    (reply, { s with database := some db })

/-- The side that a stage gives to a procedure. -/
def side : Scan.Side Stage where
  store := askStore
  node request s :=
    let (reply, node) := ScriptedNode.answer request s.node
    (reply, { s with node })
  cache request s :=
    let (reply, cache) := Cache.answer request s.cache
    (reply, { s with cache })
  cancelled s := s.node.cancelled

end Stage

namespace World

/-- Run a procedure with the memory of a part. -/
def perform {α : Type} (w : World) (part : Component) (p : Procedure α) : Except Error α × World :=
  let (outcome, s) := p.run Stage.side ⟨w.node, w.memory, w.database, w.caches part⟩
  (outcome, { w with
    node := s.node
    memory := s.memory
    database := s.database
    caches := fun c => if c = part then s.cache else w.caches c })

/-- Start all parts anew, with another setup if it is given. -/
def restart (w : World) (interval : Option Nat) (caller : Option String) : World :=
  { w with
    caches := fun _ => {}
    interval := interval.getD w.interval
    caller := caller.getD w.caller }

/-- The setup of the scanner. -/
def setup (w : World) : Scan.Setup := ⟨w.interval, Observer.standard w.caller⟩

/-- Scan from a block, or from the one after the checkpoint, until patience runs out: the last block
that is done with. -/
def scan (w : World) (start : Option Nat) (cancelled : Bool) (patience : Nat) :
    Except Error (Option Nat) × World :=
  let w := { w with node := w.node.beginScan cancelled patience }
  w.perform .scanner do
    let cursor ← Scan.Checkpoint.start start
    match ← Scan.scan w.setup w.node.rounds cursor with
    | .stopped last => pure (some last)
    | .scanning _ => pure none

/-- The observers by their names. -/
def observer? (w : World) (name : String) : Option (Observer Scan.interface) :=
  (Observer.standard w.caller).find? (·.name == name)

/-- Show an operation to one observer. -/
def observe (w : World) (observer : Observer Scan.interface) (seen : Observation) :
    Except Error Unit × World :=
  w.perform .observers (observer.apply seen)

/-- Show an operation to the standard pipeline. -/
def observeAll (w : World) (seen : Observation) : Except Error Unit × World :=
  w.perform .pipeline (Observer.applyAll (Observer.standard w.caller) seen)

/-- Forget what was asked of the node and the database so far. -/
def clearLogs (w : World) : World :=
  { w with
    node := { w.node with log := [] }
    database := w.database.map ({ · with log := [] }) }

end World

end ChainIndex.Simulation
