import ChainIndex.Observer.Standard
import ChainIndex.Proofs.Moments
import ChainIndex.Scan.Loop

/-!
# Scanners in their surroundings

A scanner writes to a store in memory. What lies around the two is left open: the node answers as it
likes, any request to the store may fail, and the run may be cancelled at any time. All of that
hangs on a world, about which nothing is known but how it goes on from request to request.

`Reachable` collects what can become of a store that was empty at first, however often the scanner
was started on it and wherever its runs were cut short.
-/

namespace ChainIndex.Scan

open Store (Memory)

/-- What a scanner and its store are surrounded by. -/
structure Surroundings (ω : Type) where
  node : (request : Node.Request) → ω → Except Error request.Result × ω
  /-- The failure of a request to the store. Without one, the store answers. -/
  fault : Store.Request → ω → Option String × ω
  cancelled : ω → Bool

/-- How things stand at one moment of a run. -/
structure Situation (ω : Type) where
  world : ω
  memory : Memory
  cache : Cache

namespace Surroundings

variable {ω : Type} (env : Surroundings ω)

/-- The side that the surroundings, the store and the scanner's memory give to a procedure. A
request that fails does not reach the store. -/
def side : Side (Situation ω) where
  store request s :=
    match env.fault request s.world with
    | (some detail, world) => (.error (.store detail), { s with world })
    | (none, world) =>
      ((Memory.answer request s.memory).1,
        { s with world, memory := (Memory.answer request s.memory).2 })
  node request s :=
    ((env.node request s.world).1, { s with world := (env.node request s.world).2 })
  cache request s :=
    ((Cache.answer request s.cache).1, { s with cache := (Cache.answer request s.cache).2 })
  cancelled s := env.cancelled s.world

/-- The reply of the surroundings to a request, and how things stand after it. -/
abbrev answer : Program.Answering interface (Situation ω) := env.side.answering

theorem answer_of_fault {request : Store.Request} {s : Situation ω} {detail : String} {world : ω}
    (h : env.fault request s.world = (some detail, world)) :
    env.answer (.store request) s = (.error (.store detail), { s with world }) := by
  show env.side.store request s = _
  simp only [side, h]
  rfl

theorem answer_of_no_fault {request : Store.Request} {s : Situation ω} {world : ω}
    (h : env.fault request s.world = (none, world)) :
    env.answer (.store request) s =
      ((Memory.answer request s.memory).1,
        ⟨world, (Memory.answer request s.memory).2, s.cache⟩) := by
  show env.side.store request s = _
  simp only [side, h]

/-- A request to the store fails on its way, or the store answers it. -/
theorem answer_store_cases (request : Store.Request) (s : Situation ω) :
    (∃ detail world, env.answer (.store request) s = (.error (.store detail), { s with world })) ∨
      ∃ world, env.answer (.store request) s =
        ((Memory.answer request s.memory).1,
          ⟨world, (Memory.answer request s.memory).2, s.cache⟩) := by
  cases hfault : env.fault request s.world with
  | mk fault world =>
    cases fault with
    | some detail => exact .inl ⟨detail, world, env.answer_of_fault hfault⟩
    | none => exact .inr ⟨world, env.answer_of_no_fault hfault⟩

/-- A request that the store has answered has reached it. -/
theorem answer_of_ok {request : Store.Request} {s : Situation ω} {v : request.Result}
    (h : (env.answer (.store request) s).1 = .ok v) :
    (Memory.answer request s.memory).1 = .ok v ∧
      (env.answer (.store request) s).2.memory = (Memory.answer request s.memory).2 := by
  obtain ⟨detail, world, hstore⟩ | ⟨world, hstore⟩ := env.answer_store_cases request s
  · rw [hstore] at h
    cases h
  · rw [hstore] at h ⊢
    exact ⟨h, rfl⟩

theorem moments_store (request : Store.Request) (s : Situation ω) :
    (store request).moments env.answer s = [(env.answer (.store request) s).2] := by
  show (env.answer (.store request) s).2 :: Program.moments env.answer
    (Program.ofExcept (env.answer (.store request) s).1) _ = _
  cases (env.answer (.store request) s).1 <;> rfl

theorem run_store (request : Store.Request) (s : Situation ω) :
    Program.run env.answer (store request) s = env.answer (.store request) s := by
  show Program.run env.answer (Program.ofExcept (env.answer (.store request) s).1)
    (env.answer (.store request) s).2 = _
  cases env.answer (.store request) s with
  | mk reply s' => cases reply <;> rfl

end Surroundings

/-! ## Steady surroundings -/

/-- Whatever the node is asked, it gives a fixed answer. -/
abbrev Answers := (request : Node.Request) → Except Error request.Result

/-- Surroundings in which the node gives fixed answers, the store never fails, and nobody cancels a
run. -/
def Surroundings.steady (answers : Answers) : Surroundings Unit where
  node request world := (answers request, world)
  fault _ world := (none, world)
  cancelled _ := false

/-- A node with one block, which has no receipts and fails when it is asked about the present. -/
def Answers.lone (b : Block) (failure : Error) : Answers
  | .block number => .ok (if number = 1 then some b else none)
  | .receipts _ => .ok []
  | .invoke _ _ _ _ => .error failure
  | .assets _ _ => .error failure
  | .balances _ => .error failure

theorem Answers.lone_error {b : Block} {failure : Error}
    (hfailure : failure.isStoreFailure = false) :
    ∀ request e, Answers.lone b failure request = .error e → e.isStoreFailure = false := by
  intro request e hreply
  cases request with
  | block | receipts => cases hreply
  | invoke | assets | balances =>
    cases hreply
    exact hfailure

/-! ## Runs -/

/-- A run of a scanner: it starts with a block of its own, or with the one after the checkpoint. -/
def launch (setup : Setup) (start : Option Nat) (rounds : Nat) : Procedure Position := do
  scan setup rounds (← Checkpoint.start start)

/-- What processing a block comes to. -/
def Surroundings.process {ω : Type} (env : Surroundings ω) (setup : Setup) (b : Block)
    (s : Situation ω) : Except Error Unit × Situation ω :=
  (indexBlock setup b).run env.side s

/-- What can become of a store that was empty at first. Every run starts with a new scanner on what
the runs before it have left, and may be cut short at any of its moments; `resting` is what may
happen to the world while no scanner runs, and `starts` what runs may be started with. -/
inductive Reachable {ω : Type} (env : Surroundings ω) (resting : ω → ω → Prop)
    (starts : Option Nat → Prop) : Situation ω → Prop where
  | empty (world : ω) : Reachable env resting starts ⟨world, Memory.empty, Cache.empty⟩
  | run {s s' : Situation ω} {world : ω} {start : Option Nat} (interval rounds : Nat)
      (caller : String) (before : Reachable env resting starts s)
      (rest : resting s.world world) (allowed : starts start)
      (moment : s' ∈ (launch ⟨interval, Observer.standard caller⟩ start rounds).moments env.answer
        ⟨world, s.memory, Cache.empty⟩) :
      Reachable env resting starts s'

end ChainIndex.Scan
