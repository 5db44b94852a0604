import ChainIndex.Chain.Block
import ChainIndex.Chain.Payload
import ChainIndex.Chain.Receipt
import ChainIndex.Error
import ChainIndex.Program

/-!
# Observers

Observers are shown every operation that was stored, in the order of the chain, and keep records
that are derived from it. A pipeline shows an operation to its observers one after another.
Whatever goes wrong with an observer concerns that observer only, unless the store failed: then
the pipeline stops.
-/

namespace ChainIndex

/-- What an observer is shown of an operation. -/
structure Observation where
  block : Block
  transaction : String
  /-- The position of the operation in its transaction. -/
  index : Nat
  typeCode : Int
  typeName : String
  /-- The payload as it is stored. -/
  payload : Payload
  receipt : Option Receipt

/-- The receipt, if the contract code ran through. -/
def Observation.completed (seen : Observation) : Option Receipt :=
  seen.receipt.filter (·.succeeded)

/-- A named program for every operation. -/
structure Observer (I : Interface) where
  name : String
  apply : Observation → Program I Error Unit

namespace Observer

variable {I : Interface}

/-- Pass over the failure of a program, unless the store failed. -/
def passOver (p : Program I Error Unit) : Program I Error Unit :=
  p.recover fun e => if e.isStoreFailure then .fail e else .done ()

/-- Show an operation to the observers in their order. -/
def applyAll : List (Observer I) → Observation → Program I Error Unit
  | [], _ => .done ()
  | observer :: rest, seen => (passOver (observer.apply seen)).bind fun _ => applyAll rest seen

end Observer

end ChainIndex
