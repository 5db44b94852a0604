import ChainIndex.Node.Reply
import Std.Data.TreeMap

/-!
# The connection to a node

Calls go out under ascending ids and wait until a reply with their id comes in, in whatever order,
or until the connection closes. A message that is no reply, or a reply that nobody waits for, is
dropped.

Calls, the listener that passes replies on, and those who close the connection take turns in any
order. An event is what one of them does without the others coming between.
-/

namespace ChainIndex.Node

/-! ## Calls -/

/-- Why a call got no reply. -/
inductive Failure where
  /-- The connection is closed. -/
  | lost
  /-- The request could not be written. -/
  | unsent (detail : String)

/-- How a call ends. -/
inductive Outcome where
  | replied (reply : Reply)
  | failed (failure : Failure)

/-- The failure of a call that got no reply. -/
def lost (method : String) : Error := .node (method ++ ": node connection closed")

/-- What a call to a method returns. -/
def Outcome.result (method : String) : Outcome → Except Error Json
  | .replied reply => reply.result? method
  | .failed .lost => .error (lost method)
  | .failed (.unsent detail) => .error (.node (method ++ ": " ++ detail))

/-- How far a call has come. -/
inductive Phase where
  /-- It has an id. -/
  | begun
  /-- Replies with its id are for it. -/
  | listed
  /-- Its request is out. -/
  | sent
  /-- It has failed, and is yet to be taken off the list. -/
  | leaving (failure : Failure)
  | ended (outcome : Outcome)

/-- The outcome of a call that is over. -/
def Phase.outcome? : Phase → Option Outcome
  | .ended outcome => some outcome
  | _ => none

/-- One who makes a call. -/
structure Caller where
  call : Rpc.Call
  phase : Phase := .begun
  /-- The reply that was passed on to it. -/
  inbox : Option Reply := none

/-- What a call does next. -/
inductive Move where
  | list
  | write
  /-- Writing the request fails. -/
  | failToWrite (detail : String)
  /-- It finds that nothing can be written any more. -/
  | findNoWriter
  /-- It notices that the connection is closed. -/
  | noticeClose
  | takeReply
  /-- It notices that no reply can come any more. -/
  | noticeDrop
  | unlist

/-- The id of a call by its number; the ids start over after the greatest word. -/
def idOf (number : Nat) : Nat := (number + 1) % (word64Max + 1)

/-! ## The connection -/

/-- How far the listener has come, which passes replies on. -/
inductive Listener where
  | listening
  /-- It listens no more. -/
  | leaving
  /-- It has closed the connection. -/
  | closing
  /-- It has dropped the calls that still waited. -/
  | gone
deriving DecidableEq, Repr

/-- The client's end of a connection. -/
structure Connection where
  /-- Those who have made a call, by number. -/
  callers : List Caller := []
  /-- Who waits for a reply, by id. -/
  pending : Std.TreeMap Nat Nat := ∅
  listener : Listener := .listening
  closed : Bool := false
  /-- Whether a request can be written. -/
  writable : Bool := true
  /-- How many are closing the connection and wait for the writer. -/
  closing : Nat := 0
  /-- How many are closing the connection and have got hold of the writer. -/
  parting : Nat := 0

namespace Connection

def connected (c : Connection) : Bool := !c.closed

/-- The id of the next call. -/
def nextId (c : Connection) : Nat := idOf c.callers.length

/-- How far the call of a number has come, if there is one. -/
def phase? (c : Connection) (number : Nat) : Option Phase :=
  c.callers[number]?.map fun caller => caller.phase

/-- The reply that was passed on to the call of a number. -/
def inbox? (c : Connection) (number : Nat) : Option Reply :=
  c.callers[number]?.bind fun caller => caller.inbox

/-- The outcome of the call of a number, if it is over. -/
def outcome? (c : Connection) (number : Nat) : Option Outcome :=
  (c.phase? number).bind Phase.outcome?

/-- The phase that a move takes a call to, if the move is possible. -/
def phaseAfter? (c : Connection) (number : Nat) (caller : Caller) (move : Move) : Option Phase :=
  match caller.phase, move with
  | .begun, .list => some .listed
  | .listed, .write => if c.writable then some .sent else none
  | .listed, .failToWrite detail => if c.writable then some (.leaving (.unsent detail)) else none
  | .listed, .findNoWriter => if c.writable then none else some (.leaving .lost)
  | .listed, .noticeClose | .sent, .noticeClose => if c.closed then some (.leaving .lost) else none
  | .sent, .takeReply => caller.inbox.map fun reply => .ended (.replied reply)
  | .sent, .noticeDrop =>
    if caller.inbox.isNone ∧ c.pending[idOf number]? ≠ some number then some (.leaving .lost)
    else none
  | .leaving failure, .unlist => some (.ended (.failed failure))
  | _, _ => none

/-- Who waits for a reply after a move of a call; a later call of the same id drives out an
earlier one. -/
def pendingAfter (c : Connection) (number : Nat) : Move → Std.TreeMap Nat Nat
  | .list => c.pending.insert (idOf number) number
  | .unlist => c.pending.erase (idOf number)
  | _ => c.pending

/-- A connection after a move of a call, if the move is possible. -/
def move? (c : Connection) (number : Nat) (move : Move) : Option Connection := do
  let caller ← c.callers[number]?
  let phase ← c.phaseAfter? number caller move
  some { c with
    callers := c.callers.set number { caller with phase }
    pending := c.pendingAfter number move }

/-- The call that a message is for. -/
def recipient? (c : Connection) (frame : Frame) : Option Nat :=
  frame.target?.bind fun id => c.pending[id]?

/-- Pass a reply on. -/
def pass (c : Connection) (number : Nat) (reply : Reply) : Connection :=
  { c with
    callers := c.callers.modify number fun caller => { caller with inbox := some reply }
    pending := c.pending.erase (idOf number) }

/-- A connection whose listener has heard a message. -/
def hear (c : Connection) (frame : Frame) : Connection :=
  match frame, frame.reply?, c.recipient? frame with
  | .hangUp, _, _ => { c with listener := .leaving }
  | _, some reply, some number => c.pass number reply
  | _, _, _ => c

/-- What happens to a connection. Writing a request and taking the writer exclude each other; who
closes the connection waits for the writer until a call that is writing is through, which then
notices the close and gives up. That this wait is also bounded by a time is left out. -/
inductive Event where
  /-- Someone makes a call. -/
  | begin (call : Rpc.Call)
  /-- The call of a number goes on. -/
  | go (number : Nat) (move : Move)
  /-- The listener hears a message. -/
  | receive (frame : Frame)
  /-- The listener notices that the connection is closed. -/
  | noticeClose
  /-- The listener closes the connection as it leaves. -/
  | cancel
  /-- The listener drops the calls that still wait. -/
  | clear
  /-- Someone starts to close the connection. -/
  | close
  /-- Who closes the connection gets hold of the writer, and nobody else will. -/
  | takeWriter
  /-- Who closes the connection is done. -/
  | closeReturns

/-- A connection after an event, if the event is possible. -/
def after (c : Connection) : Event → Option Connection
  | .begin call => some { c with callers := c.callers ++ [{ call }] }
  | .go number move => c.move? number move
  | .receive frame => if c.listener = .listening then some (c.hear frame) else none
  | .noticeClose =>
    if c.listener = .listening ∧ c.closed then some { c with listener := .leaving } else none
  | .cancel =>
    if c.listener = .leaving then some { c with
      listener := .closing
      closed := true }
    else none
  | .clear =>
    if c.listener = .closing then some { c with
      listener := .gone
      pending := ∅ }
    else none
  | .close => some { c with
      closed := true
      closing := c.closing + 1 }
  | .takeWriter =>
    if 0 < c.closing then some { c with
      writable := false
      closing := c.closing - 1
      parting := c.parting + 1 }
    else none
  | .closeReturns =>
    if 0 < c.parting then some { c with parting := c.parting - 1 } else none

/-- A connection after some events, if they are possible in their order. -/
def run : Connection → List Event → Option Connection
  | c, [] => some c
  | c, event :: rest => (c.after event).bind fun d => d.run rest

/-! ## Without delay -/

/-- What happens to a connection while nobody tarries. -/
inductive Step where
  /-- A call is made. -/
  | call (call : Rpc.Call)
  | message (frame : Frame)
  /-- The client closes the connection. -/
  | close

/-- The calls that are not over, in their order. -/
def unfinished (c : Connection) : List Nat :=
  (List.range c.callers.length).filter fun number => (c.outcome? number).isNone

/-- How a call ends whose connection has been closed. -/
def giveUp (number : Nat) : List Event := [.go number .noticeClose, .go number .unlist]

/-- The events that a step consists of. -/
def events (c : Connection) : Step → List Event
  | .call call =>
    let number := c.callers.length
    [.begin call, .go number .list] ++
      if c.closed then giveUp number else [.go number .write]
  | .message .hangUp =>
    [.receive .hangUp, .cancel, .clear] ++ c.unfinished.flatMap giveUp
  | .message frame =>
    .receive frame :: (c.recipient? frame).toList.map fun number => .go number .takeReply
  | .close =>
    [.close, .takeWriter, .closeReturns, .noticeClose, .cancel, .clear] ++
      c.unfinished.flatMap giveUp

/-- A connection after an event, or as it was if the event is not possible. -/
def follow (c : Connection) (event : Event) : Connection := (c.after event).getD c

/-- A connection after a step, and what the calls return that end with it. -/
def step (c : Connection) (step : Step) : Connection × List (Nat × Except Error Json) :=
  let d := (c.events step).foldl follow c
  (d, (List.range d.callers.length).filterMap fun number => do
    guard (c.outcome? number).isNone
    let caller ← d.callers[number]?
    let outcome ← caller.phase.outcome?
    some (number, outcome.result caller.call.method))

end Connection

/-- The failure to open a connection. -/
def unreachable (endpoint : String) : Error := .node ("connect " ++ endpoint ++ ": " ++ elided)

/-- Seconds between two signs of life on a connection. -/
def signInterval : Nat := 30

end ChainIndex.Node
