import ChainIndex.Json.Record
import ChainIndex.Json.Text
import ChainIndex.Node.Rpc

/-!
# What goes over a connection

A request is a text with an id, and so is a reply. Whatever else a node sends says nothing to a
client, apart from the end of the connection.
-/

namespace ChainIndex.Node

open Json (Document Reader fields?)

/-- The text of a call, its members in ascending order. -/
def requestText (id : Nat) (call : Rpc.Call) : String :=
  (Json.obj [("id", Json.ofNat id), ("jsonrpc", .str "2.0"), ("method", .str call.method),
    ("params", .arr call.params)]).text

/-- A reply of a node. -/
structure Reply where
  id : Option Json
  result : Option Json
  error : Option Json

namespace Reply

/-- Read a reply; whatever it lacks is missing. -/
def read : Reader Reply := fun d => do
  let fields ← fields? ["id", "result", "error"] d
  some {
    id := ← fields.get "id" (.optional .value) none
    result := ← fields.get "result" (.optional .value) none
    error := ← fields.get "error" (.optional .value) none }

/-- The number that a reply has as its id. -/
def number? (reply : Reply) : Option Nat :=
  match reply.id with
  | some (.int n) => if 0 ≤ n then some n.toNat else none
  | _ => none

/-- The result of a call that got this reply. -/
def result? (reply : Reply) (method : String) : Except Error Json :=
  match reply.error with
  | some e => .error (.node (method ++ ": " ++ e.text))
  | none => .ok (reply.result.getD .null)

/-- The reply that a text of a node is, if it is one. -/
def ofText (text : String) : Option Reply := (Document.read text).bind read

end Reply

/-- A message of a node. -/
inductive Frame where
  | text (s : String)
  | binary (bytes : ByteArray)
  /-- A sign of life. -/
  | sign
  /-- The node closes the connection, or it breaks. -/
  | hangUp

namespace Frame

/-- The text of a message, if it has one. -/
def text? : Frame → Option String
  | .text s => some s
  | .binary bytes => String.fromUTF8? bytes
  | .sign | .hangUp => none

/-- The reply that a message is, if it is one. -/
def reply? (frame : Frame) : Option Reply := frame.text?.bind Reply.ofText

/-- The id that a message replies to, if it is a reply with one. -/
def target? (frame : Frame) : Option Nat := frame.reply?.bind Reply.number?

end Frame

end ChainIndex.Node
