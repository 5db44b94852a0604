import ChainIndex.Node.Connection

/-!
# A node that follows a script

A scripted server answers the requests of a client one by one: each comes with the messages that
the script has for it. Calls that are made together go out before the first of them is answered,
and a call goes on as soon as its reply is there.
-/

namespace ChainIndex.Simulation

open Node (Connection Frame)

/-- What a scripted server does after a request. -/
inductive Message where
  /-- It replies to the request with a result. -/
  | result (v : Json)
  /-- It replies to the request with an error. -/
  | error (v : Json)
  | text (s : String)
  | binary (bytes : ByteArray)
  | ping
  /-- It closes the connection, or breaks it. -/
  | hangUp
  /-- The client closes the connection meanwhile. -/
  | clientClose

/-- What a message to the request with an id is on the connection, if it goes over it. -/
def Message.frame? (id : Nat) : Message → Option Frame
  | .result v => some (.text (Json.obj
      [("id", Json.ofNat id), ("jsonrpc", .str "2.0"), ("result", v)]).text)
  | .error v => some (.text (Json.obj
      [("error", v), ("id", Json.ofNat id), ("jsonrpc", .str "2.0")]).text)
  | .text s => some (.text s)
  | .binary bytes => some (.binary bytes)
  | .ping => some .sign
  | .hangUp => some .hangUp
  | .clientClose => none

/-- What a client is asked to do. -/
inductive Ask where
  | node (request : Node.Request)
  | isConnected
  | close
  /-- Show signs of life for so many seconds. -/
  | keepAlive (seconds : Nat)

/-- What comes of it. -/
inductive Answer where
  | found (request : Node.Request) (result : request.Result)
  | failed (e : Error)
  /-- The connection was known to be closed. -/
  | refused
  | connected (yes : Bool)
  | closed
  /-- The signs of life that were shown, and whether more would have followed. -/
  | alive (signs : Nat) (goesOn : Bool)
  /-- No reply came. -/
  | unanswered

/-- A call that waits for a reply. -/
structure Waiting where
  /-- Which of the things that were asked for together the call belongs to. -/
  slot : Nat
  number : Nat
  next : Except Error Json → Node.Rpc.Remote Answer

/-- A client and its scripted server. -/
structure Session where
  connection : Connection := {}
  waiting : List Waiting := []
  answers : List (Nat × Answer) := []
  /-- Requests on their way to the server. -/
  sent : List (Nat × String) := []
  /-- The texts of the requests that the server has got. -/
  received : List String := []
  script : List (List Message)
  /-- Whether the server still reads. -/
  serving : Bool := true

namespace Session

/-- Go on with a program until it is done or waits for a reply. -/
def resume (slot : Nat) : Node.Rpc.Remote Answer → Session → Session
  | .done a, s => { s with answers := s.answers ++ [(slot, a)] }
  | .fail e, s => { s with answers := s.answers ++ [(slot, .failed e)] }
  | .ask call next, s =>
    let id := s.connection.nextId
    let number := s.connection.callers.length
    let (connection, ended) := s.connection.step (.call call)
    match ended with
    | [] =>
      { s with
        connection
        waiting := s.waiting ++ [⟨slot, number, next⟩]
        sent := s.sent ++ [(id, Node.requestText id call)] }
    | (_, result) :: _ => resume slot (next result) { s with connection }

/-- Go on with the calls that have ended. -/
def settle : List (Nat × Except Error Json) → Session → Session
  | [], s => s
  | (number, result) :: rest, s =>
    match s.waiting.find? (·.number == number) with
    | none => settle rest s
    | some call =>
      let s := { s with waiting := s.waiting.filter (·.number != number) }
      settle rest (resume call.slot (call.next result) s)

/-- Let something happen to the connection. -/
def happen (event : Connection.Step) (s : Session) : Session :=
  let (connection, ended) := s.connection.step event
  settle ended { s with connection }

/-- Send the messages for a request. -/
def deliver (id : Nat) : List Message → Session → Session
  | [], s => s
  -- a server that has hung up sends no more, while one that was left goes on unheard
  | .hangUp :: _, s => happen (.message .hangUp) { s with serving := false }
  | .clientClose :: rest, s => deliver id rest (happen .close s)
  | message :: rest, s =>
    match message.frame? id with
    | some frame => deliver id rest (happen (.message frame) s)
    | none => deliver id rest s

/-- Let the server answer requests, at most so many. -/
def serve : Nat → Session → Session
  | 0, s => s
  | rounds + 1, s =>
    match s.sent, s.serving with
    | (id, text) :: sent, true =>
      let messages := s.script.head?.getD [.result .null]
      serve rounds (deliver id messages { s with
        sent
        received := s.received ++ [text]
        script := s.script.tail })
    | _, _ => s

/-- Ask a client for something. -/
def begin (slot : Nat) (ask : Ask) (s : Session) : Session :=
  let answer (a : Answer) (s : Session) : Session := { s with answers := s.answers ++ [(slot, a)] }
  match ask with
  | .isConnected => answer (.connected s.connection.connected) s
  | .close => answer .closed (happen .close s)
  | .keepAlive seconds =>
    if s.connection.connected then answer (.alive (seconds / Node.signInterval) true) s
    else answer (.alive 0 false) s
  | .node request =>
    if s.connection.connected then
      resume slot ((Node.Rpc.answer request).bind fun result => .done (.found request result)) s
    else answer .refused s

/-- Begin some things in their order, numbered from a slot on. -/
def beginAll : Nat → List Ask → Session → Session
  | _, [], s => s
  | slot, ask :: rest, s => beginAll (slot + 1) rest (begin slot ask s)

/-- Ask a client for some things at once; a request to a node makes at most two calls. -/
def together (asks : List Ask) (s : Session) : List Answer × Session :=
  let s := serve (2 * asks.length) (beginAll 0 asks { s with answers := [] })
  ((List.range asks.length).map fun slot => (s.answers.lookup slot).getD .unanswered, s)

end Session

end ChainIndex.Simulation
