import ChainIndex.Node.Request
import ChainIndex.Scan.Cache

/-!
# Procedures of a scanner

Everything a scanner does is a program that asks the store, the node, its own memory, and whether
the run was cancelled. `Side.answering` puts the four sides together.
-/

namespace ChainIndex.Scan

/-- A request of a scanner. -/
inductive Request where
  | store (request : Store.Request)
  | node (request : Node.Request)
  | cache (request : Cache.Request)
  /-- Whether the run has been cancelled. -/
  | cancelled
deriving DecidableEq, Repr

/-- The reply to a request of a scanner. -/
@[reducible] def Request.Reply : Request → Type
  | .store request => Except Error request.Result
  | .node request => Except Error request.Result
  | .cache request => request.Result
  | .cancelled => Bool

/-- The surroundings of a scanner. -/
def interface : Interface where
  Request := Request
  Reply := Request.Reply

/-- A program that a scanner runs. -/
abbrev Procedure (α : Type) := Program interface Error α

/-- Ask the store; its error is the error of the procedure. -/
def store (request : Store.Request) : Procedure request.Result :=
  .ask (Request.store request : interface.Request) Program.ofExcept

/-- Ask the node; its error is the error of the procedure. -/
def node (request : Node.Request) : Procedure request.Result :=
  .ask (Request.node request : interface.Request) Program.ofExcept

/-- Ask the scanner's memory. -/
def cache (request : Cache.Request) : Procedure request.Result :=
  .ask (Request.cache request : interface.Request) .done

/-- Ask whether the run has been cancelled. -/
def cancelled : Procedure Bool :=
  .ask (Request.cancelled : interface.Request) .done

/-- A store, a node, a memory and a cancellation signal over one state. -/
structure Side (σ : Type) where
  store : (request : Store.Request) → σ → Except Error request.Result × σ
  node : (request : Node.Request) → σ → Except Error request.Result × σ
  cache : (request : Cache.Request) → σ → request.Result × σ
  cancelled : σ → Bool

/-- The reply of a side to a request of a scanner. -/
def Side.answering {σ : Type} (side : Side σ) : Program.Answering interface σ
  | .store request, s => side.store request s
  | .node request, s => side.node request s
  | .cache request, s => side.cache request s
  | .cancelled, s => (side.cancelled s, s)

/-- Run a procedure against a side. -/
def Procedure.run {σ α : Type} (side : Side σ) (p : Procedure α) (s : σ) : Except Error α × σ :=
  Program.run side.answering p s

end ChainIndex.Scan
