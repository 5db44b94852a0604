import ChainIndex.Error
import ChainIndex.Node.Request

/-!
# A node in memory

A node that knows what it was told. Faults make some of its answers fail or cancel the running scan;
blocks can turn up only after they were asked for in vain. Every request is kept in a log.
-/

namespace ChainIndex.Simulation

/-- Requests that fail. -/
structure Fault where
  /-- The kind of request. -/
  method : String
  /-- What the request is about, or any request of the kind. -/
  subject : Option String
  /-- The error of such a request, or none if it goes on. -/
  error : Option Error
  /-- Whether such a request cancels the running scan. -/
  cancels : Bool

/-- The kind of a request. -/
def methodName : Node.Request → String
  | .block _ => "get_block"
  | .receipts _ => "get_transaction_receipts"
  | .invoke _ _ _ _ => "invoke_read_only"
  | .assets _ _ => "list_assets"
  | .balances _ => "get_address_balances"

/-- What a request is about. -/
def subjectOf : Node.Request → String
  | .block number => toString number
  | .receipts transaction => transaction
  | .invoke _ contract method argument => contract ++ "." ++ method ++ "(" ++ argument ++ ")"
  | .assets _ _ => ""
  | .balances address => address

/-- Whether a fault concerns a request. -/
def Fault.concerns (fault : Fault) (request : Node.Request) : Bool :=
  fault.method == methodName request && fault.subject.all (· == subjectOf request)

/-- What a node in memory was told, and what it was asked. -/
structure ScriptedNode where
  blocks : List (Nat × Block) := []
  receipts : List (String × List Receipt) := []
  /-- The results of methods of contracts, by contract, method and argument. -/
  results : List ((String × String × String) × String) := []
  balances : List (String × Balances) := []
  assets : List Asset := []
  /-- A block that cannot be fetched. -/
  failing : Option Nat := none
  /-- Blocks that are given out for a number, whatever number they carry. -/
  substitutes : List (Nat × Block) := []
  /-- Blocks that turn up one by one, each after a block was asked for in vain. -/
  late : List Block := []
  faults : List Fault := []
  /-- How many more blocks may be asked for in vain before the running scan is cancelled. -/
  patience : Nat := 1
  /-- Whether the running scan has been cancelled. -/
  cancelled : Bool := false
  /-- The requests so far. -/
  log : List Node.Request := []
  /-- The numbers of the blocks that were looked up. -/
  lookups : List Nat := []
  /-- The contract, the method and the argument of the methods that were run. -/
  invocations : List (String × String × String) := []

namespace ScriptedNode

/-- Set the value of a key. -/
def put {κ α : Type} [BEq κ] (key : κ) (value : α) (entries : List (κ × α)) : List (κ × α) :=
  (key, value) :: entries.filter fun entry => !(entry.1 == key)

/-- Tell the node a block. -/
def tellBlock (n : ScriptedNode) (block : Block) : ScriptedNode :=
  { n with blocks := put block.number block n.blocks }

/-- Tell the node the balance of an address in an asset. -/
def tellBalance (n : ScriptedNode) (address asset : String) (amount : Int) : ScriptedNode :=
  let old := (n.balances.lookup address).getD []
  { n with balances := put address (Balances.put asset amount old) n.balances }

/-- A block was asked for in vain: the next late one turns up, or patience runs out. -/
def missed (n : ScriptedNode) : ScriptedNode :=
  match n.late with
  | block :: late => { n with late }.tellBlock block
  | [] =>
    -- only the step from one to none cancels, later ones find patience gone already
    { n with
      patience := n.patience - 1
      cancelled := n.cancelled || n.patience == 1 }

/-- Look up a block. -/
def lookUp (n : ScriptedNode) (number : Nat) : Except Error (Option Block) × ScriptedNode :=
  -- a substitute is given out without a look at the blocks
  match n.substitutes.lookup number with
  | some block => (.ok (some block), n)
  | none =>
    let n := { n with lookups := n.lookups ++ [number] }
    if n.failing = some number then
      (.error (.node ("get_block #" ++ toString number ++ ": connection reset")), n)
    else
      match n.blocks.lookup number with
      | some block => (.ok (some block), n)
      | none => (.ok none, n.missed)

/-- The answer of a node without faults. -/
def inform : (request : Node.Request) → ScriptedNode → Except Error request.Result × ScriptedNode
  | .block number, n => n.lookUp number
  | .receipts transaction, n => (.ok ((n.receipts.lookup transaction).getD []), n)
  | .invoke _ contract method argument, n =>
    let n := { n with invocations := n.invocations ++ [(contract, method, argument)] }
    match n.results.lookup (contract, method, argument) with
    | some result => (.ok result, n)
    | none =>
      (.error (.node (contract ++ "." ++ method ++ "(" ++ argument ++ ") not available")), n)
  | .assets offset limit, n => (.ok ((n.assets.drop offset).take limit), n)
  | .balances address, n => (.ok ((n.balances.lookup address).getD []), n)

/-- The answer of a node: the first fault that concerns the request comes first. -/
def answer (request : Node.Request) (n : ScriptedNode) :
    Except Error request.Result × ScriptedNode :=
  let n := { n with log := n.log ++ [request] }
  match n.faults.find? (·.concerns request) with
  | none => inform request n
  | some fault =>
    let n := { n with cancelled := n.cancelled || fault.cancels }
    match fault.error with
    | some e => (.error e, n)
    | none => inform request n

/-- The node at the start of a scan, which it cancels once blocks have been asked for in vain so
many times. -/
def beginScan (n : ScriptedNode) (cancelled : Bool) (patience : Nat) : ScriptedNode :=
  { n with cancelled, patience }

/-- A number of rounds that a scan cannot exceed: every round but the last finds a block or misses
one, and missing one brings up a late block or costs patience. -/
def rounds (n : ScriptedNode) : Nat :=
  n.blocks.length + n.substitutes.length + 2 * n.late.length + n.patience + 2

end ScriptedNode

end ChainIndex.Simulation
