import ChainIndex.Database.Statement

/-!
# Connections to a database

How many connections are kept, and for how long. The first one is opened at once, so that a database
that refuses it is noticed at the start. A database that is still starting, or that has no room for
the moment, is asked again until the time for a connection is over.
-/

namespace ChainIndex.Database

/-- The limits of a pool of connections; times are in seconds. -/
structure Pool where
  most : Nat
  least : Nat
  acquireWithin : Nat
  closeIdleAfter : Nat
deriving DecidableEq, Repr

/-- Why a database does not take a connection. -/
structure Refusal where
  code : String
  message : String
deriving DecidableEq, Repr

/-- Whether the database may take the connection later: it has too many, or it is starting. -/
def Refusal.isTransient (r : Refusal) : Bool := r.code == "53300" || r.code == "57P03"

namespace Pool

/-- The limits that a scanner uses. -/
def standard : Pool := ⟨20, 2, 10, 300⟩

/-- The number of connections of a pool that nobody uses. -/
def atRest (pool : Pool) : Nat := pool.least

/-- Open a pool on a database, which may keep answering the first connection with a refusal. -/
def onto : Option Refusal → Except Error Pool
  | none => .ok standard
  | some r =>
    if r.isTransient then .error (.store "pool timed out while waiting for an open connection")
    else .error (refusal r.message)

end Pool

end ChainIndex.Database
