import ChainIndex.Chain.Amount
import ChainIndex.Json.Record

/-!
# Token transfers

The argument of the event with which a token reports a transfer. A transfer without a sender creates
tokens, one without a receiver destroys them.
-/

namespace ChainIndex

open Json (Document Reader fields?)

/-- A transfer of tokens, in raw units. -/
structure Transfer where
  sender : String
  receiver : String
  amount : Int
deriving DecidableEq, Repr

namespace Transfer

/-- The parties of a transfer and the value that stands for its amount, which has to be there. -/
def readArgument : Reader (String × String × Json) := fun d => do
  let fields ← fields? ["from", "to", "amount"] d
  some (← fields.get "from" .text "", ← fields.get "to" .text "", ← fields.need "amount" .value)

/-- Read the argument of a transfer event. -/
def ofArgument (arg : String) : Except Error Transfer :=
  match (Document.read arg).bind readArgument with
  | none => .error (.malformed (.transferArgument arg))
  | some (sender, receiver, amount) =>
    match Amount.ofJson amount with
    | none => .error (.malformed (.transferAmount amount))
    | some amount => .ok { sender, receiver, amount }

/-- The owners whose balances a transfer changes: the sender, then a receiver who is not the
sender. -/
def parties (t : Transfer) : List String :=
  -- no balance belongs to the empty address, and none is refreshed twice
  (if t.sender = "" then [] else [t.sender]) ++
    (if t.receiver = "" ∨ t.receiver = t.sender then [] else [t.receiver])

/-- Whether a transfer changes how many tokens there are. -/
def mintsOrBurns (t : Transfer) : Bool :=
  t.sender == "" || t.receiver == ""

end Transfer

end ChainIndex
