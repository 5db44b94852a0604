import ChainIndex.Proofs.Turns
import ChainIndex.Simulation.Server

/-!
# Sessions with a scripted server

Whatever a client is asked for, and whatever its server sends, the connection between them is one
that a course of events leads to.
-/

namespace ChainIndex.Simulation.Session

open Node (Connection)

variable {s : Session}

theorem resume_reachable (slot : Nat) (p : Node.Rpc.Remote Answer)
    (h : s.connection.Reachable) : (resume slot p s).connection.Reachable := by
  induction p generalizing s with
  | done a => exact h
  | fail e => exact h
  | ask call next ih =>
    have hstep := h.step (.call call)
    rw [resume]
    cases hcall : s.connection.step (.call call) with
    | mk connection ended =>
      rw [hcall] at hstep
      cases ended with
      | nil => exact hstep
      | cons first rest => exact ih _ hstep

theorem settle_reachable (ended : List (Nat × Except Error Json))
    (h : s.connection.Reachable) : (settle ended s).connection.Reachable := by
  induction ended generalizing s with
  | nil => exact h
  | cons first rest ih =>
    rw [settle]
    split
    · exact ih h
    · exact ih (resume_reachable _ _ h)

theorem happen_reachable (step : Connection.Step) (h : s.connection.Reachable) :
    (happen step s).connection.Reachable :=
  settle_reachable _ (h.step step)

theorem deliver_reachable (id : Nat) (messages : List Message) (h : s.connection.Reachable) :
    (deliver id messages s).connection.Reachable := by
  induction messages generalizing s with
  | nil => exact h
  | cons message rest ih =>
    cases message with
    | hangUp => exact happen_reachable _ h
    | clientClose => exact ih (happen_reachable _ h)
    | result | error | text | binary | ping => exact ih (happen_reachable _ h)

theorem serve_reachable (rounds : Nat) (h : s.connection.Reachable) :
    (serve rounds s).connection.Reachable := by
  induction rounds generalizing s with
  | zero => exact h
  | succ rounds ih =>
    rw [serve]
    split
    · exact ih (deliver_reachable _ _ h)
    · exact h

theorem begin_reachable (slot : Nat) (ask : Ask) (h : s.connection.Reachable) :
    (begin slot ask s).connection.Reachable := by
  cases ask with
  | isConnected => exact h
  | close => exact happen_reachable .close h
  | keepAlive seconds =>
    rw [begin]
    split <;> exact h
  | node request =>
    rw [begin]
    split
    · exact resume_reachable slot _ h
    · exact h

theorem beginAll_reachable (slot : Nat) (asks : List Ask) (h : s.connection.Reachable) :
    (beginAll slot asks s).connection.Reachable := by
  induction asks generalizing slot s with
  | nil => exact h
  | cons ask rest ih => exact ih _ (begin_reachable slot ask h)

/-- What is asked for at once, and what the server sends meanwhile, is a course of events. -/
theorem together_reachable (asks : List Ask) (h : s.connection.Reachable) :
    (together asks s).2.connection.Reachable :=
  serve_reachable _ (beginAll_reachable 0 asks h)

end ChainIndex.Simulation.Session
