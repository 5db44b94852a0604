import ChainIndex.Proofs.StoreFailures

/-!
# Runs that are shut down

A shutdown cancels a run and closes its connection to the node. When that happens while the receipts
of a transaction are fetched, the processing of the block ends with the node's error, and the run
stops before the block. Questions to the node about the present go unanswered in the same way, but
no observer lets on about it: the block is done with, and the checkpoint moves past it, without the
balances that were to be refreshed.
-/

namespace ChainIndex.Scan

open Program (Call)
open Store (Memory)

section

variable {ω : Type}

/-- Once a run has been cancelled it stays cancelled, and the checkpoint can still be read and
written. -/
structure Surroundings.WindDown (env : Surroundings ω) : Prop where
  node : ∀ request world, env.cancelled world → env.cancelled (env.node request world).2
  fault : ∀ request world, env.cancelled world → env.cancelled (env.fault request world).2
  reads : ∀ world, env.cancelled world → (env.fault (.config Checkpoint.key) world).1 = none
  writes : ∀ value world, env.cancelled world →
    (env.fault (.putConfig Checkpoint.key value) world).1 = none

variable {env : Surroundings ω} {setup : Setup} {cursor : Nat} {s s' : Situation ω}

/-- The checkpoint that a store holds, as it is written. -/
def Situation.checkpoint (s : Situation ω) : Option String :=
  s.memory.configs.lookup Checkpoint.key

/-- While a run winds down, the checkpoint can be moved. -/
theorem moveTo_windDown (henv : env.WindDown) (number : Nat) (hs : env.cancelled s.world) :
    ∃ s', Program.run env.answer (Checkpoint.moveTo number) s = (.ok (), s') ∧
      s'.checkpoint = some (Checkpoint.text number) ∧ env.cancelled s'.world := by
  have hmoving := moveTo_moving env number s
  have hread := henv.reads s.world hs
  have hworld := henv.fault (.config Checkpoint.key) s.world hs
  generalize (Checkpoint.moveTo number).moments env.answer s = moments at hmoving
  generalize Program.run env.answer (Checkpoint.moveTo number) s = result at hmoving ⊢
  cases hmoving with
  | unread hfault =>
    rw [hfault] at hread
    cases hread
  | there hfault hthere =>
    rw [hfault] at hworld
    exact ⟨_, rfl, hthere, hworld⟩
  | @unwritten detail world world' hfault hfault' =>
    rw [hfault] at hworld
    have hwrite := henv.writes (Checkpoint.text number) world hworld
    rw [hfault'] at hwrite
    cases hwrite
  | @written world world' hfault hfault' =>
    rw [hfault] at hworld
    have hworld' := henv.fault (.putConfig Checkpoint.key (Checkpoint.text number)) world hworld
    rw [hfault'] at hworld'
    exact ⟨_, rfl, Store.Memory.lookup_putEntry_self _ _ _, hworld'⟩

/-- While a run winds down, it can end before any block. -/
theorem endBefore_windDown (cursor : Nat) (henv : env.WindDown) (hs : env.cancelled s.world) :
    ∃ s', Program.run env.answer (endBefore cursor) s = (.ok (.stopped (cursor - 1)), s') ∧
      s'.checkpoint = some (Checkpoint.text (cursor - 1)) := by
  obtain ⟨s', hmoved, hcheckpoint, -⟩ := moveTo_windDown henv (cursor - 1) hs
  refine ⟨s', ?_, hcheckpoint⟩
  unfold endBefore
  rw [Program.bind_eq, Program.run_bind, hmoved]
  rfl

/-- A scan stops with the round that stops. -/
theorem run_scan_of_stopped {last : Nat} (rounds : Nat)
    (h : Program.run env.answer (advance setup cursor) s = (.ok (.stopped last), s')) :
    Program.run env.answer (scan setup (rounds + 1) cursor) s = (.ok (.stopped last), s') := by
  rw [scan, Program.bind_eq, Program.run_bind, h]
  rfl

theorem run_scan_of_scanning {next : Nat} (rounds : Nat)
    (h : Program.run env.answer (advance setup cursor) s = (.ok (.scanning next), s')) :
    Program.run env.answer (scan setup (rounds + 1) cursor) s =
      Program.run env.answer (scan setup rounds next) s' := by
  rw [scan, Program.bind_eq, Program.run_bind, h]

/-- A block whose processing fails with the node is broken off; once cancelled, the run ends before
it. -/
theorem scanBlock_windDown (henv : env.WindDown) {b : Block} {e : Error}
    (hnode : e.isNodeFailure)
    (hprocessed : Program.run env.answer (indexBlock setup (asked b cursor)) s = (.error e, s'))
    (hcancelled : env.cancelled s'.world) :
    ∃ s'', Program.run env.answer (scanBlock setup cursor b) s =
        (.ok (.stopped (cursor - 1)), s'') ∧
      s''.checkpoint = some (Checkpoint.text (cursor - 1)) := by
  obtain ⟨s'', hstopped, hcheckpoint⟩ := endBefore_windDown cursor henv hcancelled
  refine ⟨s'', ?_, hcheckpoint⟩
  rw [← hstopped]
  show Program.run env.answer ((indexBlock setup (asked b cursor)).attempt.bind _) s = _
  rw [Program.run_bind, Program.run_attempt, hprocessed]
  show Program.run env.answer (breakOff cursor e) s' = _
  unfold breakOff
  rw [if_pos hnode]
  show Program.run env.answer (if env.cancelled s'.world then _ else _) s' = _
  rw [hcancelled]
  rfl

/-- A block that is processed to a good end is passed, and once cancelled the run ends after it. -/
theorem settle_windDown (setup : Setup) (cursor : Nat) (henv : env.WindDown)
    (hs : env.cancelled s.world) :
    ∃ s', Program.run env.answer (settle setup cursor .processed) s =
        (.ok (.scanning (cursor + 1)), s') ∧ env.cancelled s'.world := by
  simp only [settle, Program.bind_eq, Program.pure_eq]
  by_cases hdue : 0 < setup.interval ∧ cursor % setup.interval = 0
  · rw [if_pos hdue]
    obtain ⟨s', hmoved, -, hs'⟩ := moveTo_windDown henv cursor hs
    refine ⟨s', ?_, hs'⟩
    rw [Program.run_bind, hmoved]
    rfl
  · rw [if_neg hdue]
    exact ⟨s, rfl, hs⟩

end

/-- A run is shut down while a block is processed. If the receipts of a transaction are not given
because of that, the run ends before the block, which is processed again the next time. If they are,
the run ends after the block as soon as its processing ends well, whatever questions to the node
have failed until then. -/
theorem shutdown_within_block {ω : Type} {env : Surroundings ω} (henv : env.WindDown)
    (interval : Nat) (caller : String) {number : Nat} {b : Block} {s : Situation ω} {world : ω}
    (hrunning : env.cancelled s.world = false)
    (hblock : env.node (.block number) s.world = (.ok (some b), world))
    (hcancelled : env.cancelled (env.process ⟨interval, Observer.standard caller⟩
      (asked b number) { s with world }).2.world) (rounds : Nat) :
    let setup : Setup := ⟨interval, Observer.standard caller⟩
    let ended := fun last => ∃ s',
      (scan setup (rounds + 2) number).run env.side s = (.ok (.stopped last), s') ∧
        s'.checkpoint = some (Checkpoint.text last)
    (∀ transaction e, ⟨Request.node (.receipts transaction), .error e⟩ ∈
        (indexBlock setup (asked b number)).calls env.side.answering { s with world } →
        e.isNodeFailure → ended (number - 1)) ∧
      ((env.process setup (asked b number) { s with world }).1 = .ok () → ended number) := by
  intro setup ended
  have hadvance : Program.run env.answer (advance setup number) s =
      Program.run env.answer (scanBlock setup number b) { s with world } :=
    run_advance_of_block env hrunning hblock
  constructor
  · intro transaction e hcall hnode
    obtain ⟨before, later, hcalls⟩ := List.append_of_mem hcall
    have hfatal : Request.breaking? (.node (.receipts transaction)) (.error e) = some e := rfl
    obtain ⟨-, hprocessed⟩ :=
      (indexBlock_processes interval caller (asked b number)).ends hcalls hfatal
    have hworld : env.process setup (asked b number) { s with world } = _ := hprocessed
    rw [hworld] at hcancelled
    obtain ⟨s', hstopped, hcheckpoint⟩ := scanBlock_windDown henv hnode hprocessed hcancelled
    exact ⟨s', run_scan_of_stopped (rounds + 1) (hadvance.trans hstopped), hcheckpoint⟩
  · intro hok
    have hprocessed : Program.run env.answer (indexBlock setup (asked b number)) { s with world } =
        (.ok (), (env.process setup (asked b number) { s with world }).2) := Prod.ext hok rfl
    obtain ⟨s₁, hscanning, hcancelled₁⟩ := settle_windDown setup number henv hcancelled
    obtain ⟨s', hstopped, hcheckpoint⟩ := endBefore_windDown (number + 1) henv hcancelled₁
    refine ⟨s', ?_, hcheckpoint⟩
    have hround : Program.run env.answer (advance setup number) s =
        (.ok (.scanning (number + 1)), s₁) := by
      rw [hadvance, run_scanBlock_of_ok env hprocessed]
      exact hscanning
    show Program.run env.answer (scan setup (rounds + 2) number) s = _
    rw [run_scan_of_scanning (rounds + 1) hround]
    apply run_scan_of_stopped rounds
    rw [run_advance_of_cancelled env hcancelled₁]
    exact hstopped

/-- Surroundings with one block, whose connection is closed under the first request for anything
else, by a shutdown. -/
def closingOn (b : Block) : Surroundings Bool where
  node
    | .block number, world => (.ok (if number = 1 then some b else none), world)
    | .receipts _, _ => (.error (.node "closed"), true)
    | .invoke _ _ _ _, _ => (.error (.node "closed"), true)
    | .assets _ _, _ => (.error (.node "closed"), true)
    | .balances _, _ => (.error (.node "closed"), true)
  fault _ world := (none, world)
  cancelled := id

theorem windDown_closingOn (b : Block) : (closingOn b).WindDown where
  node request world hworld := by
    cases request with
    | block number => exact hworld
    | receipts | invoke | assets | balances => rfl
  fault _ _ hworld := hworld
  reads _ _ := rfl
  writes _ _ _ := rfl

/-- A block with a call of a contract. -/
def calling : Block :=
  { number := 1, transactions := [{ id := "tx", operations := [.arr [.int 79, .obj []]] }] }

/-- Whether a call is a fetch of receipts that has failed with the node. -/
def isRefusedFetch : Call interface → Bool
  | ⟨.node (.receipts _), .error e⟩ => e.isNodeFailure
  | _ => false

/-- Whether a call is a question about the present that has failed with the node. -/
def isRefusedQuestion : Call interface → Bool
  | ⟨.node request, .error e⟩ => request.isLive && e.isNodeFailure
  | _ => false

/-- What the first block comes to while the connection is closed. -/
def closedBlock (b : Block) : Except Error Unit × Situation Bool :=
  (closingOn b).process ⟨1, Observer.standard "caller"⟩ (asked b 1)
    ⟨false, Memory.empty, Cache.empty⟩

/-- What is called there. -/
def closedCalls (b : Block) : List (Call interface) :=
  (indexBlock ⟨1, Observer.standard "caller"⟩ (asked b 1)).calls (closingOn b).side.answering
    ⟨false, Memory.empty, Cache.empty⟩

/-- The run that is at the block. -/
def closedRun (b : Block) : Except Error Position × Situation Bool :=
  (scan ⟨1, Observer.standard "caller"⟩ 2 1).run (closingOn b).side
    ⟨false, Memory.empty, Cache.empty⟩

theorem exists_of_isRefusedFetch {calls : List (Call interface)} (h : calls.any isRefusedFetch) :
    ∃ transaction e, ⟨Request.node (.receipts transaction), .error e⟩ ∈ calls ∧
      e.isNodeFailure := by
  obtain ⟨⟨request, reply⟩, hmem, hrefused⟩ := List.any_eq_true.1 h
  cases request with
  | node request =>
    cases request with
    | receipts transaction =>
      cases reply with
      | error e => exact ⟨transaction, e, hmem, hrefused⟩
      | ok received => cases hrefused
    | block | invoke | assets | balances => cases hrefused
  | store | cache | cancelled => cases hrefused

theorem shutdown_within_lone_blocks :
    (∃ s', closedRun calling = (.ok (.stopped 0), s') ∧
        s'.checkpoint = some (Checkpoint.text 0)) ∧
      ∃ s', closedRun transferring = (.ok (.stopped 1), s') ∧
        s'.checkpoint = some (Checkpoint.text 1) := by
  constructor
  · have hcancelled : (closingOn calling).cancelled (closedBlock calling).2.world := by
      decide +kernel
    have hended := @shutdown_within_block Bool (closingOn calling) (windDown_closingOn calling) 1
      "caller" 1 calling ⟨false, Memory.empty, Cache.empty⟩ false rfl rfl hcancelled 0
    have hfetch : (closedCalls calling).any isRefusedFetch := by decide +kernel
    obtain ⟨transaction, e, hmem, hnode⟩ := exists_of_isRefusedFetch hfetch
    exact hended.1 transaction e hmem hnode
  · have hcancelled : (closingOn transferring).cancelled (closedBlock transferring).2.world := by
      decide +kernel
    have hended := @shutdown_within_block Bool (closingOn transferring)
      (windDown_closingOn transferring) 1 "caller" 1 transferring
      ⟨false, Memory.empty, Cache.empty⟩ false rfl rfl hcancelled 0
    have hok : (closedBlock transferring).1.toBool := by decide +kernel
    apply hended.2
    show (closedBlock transferring).1 = .ok ()
    cases hresult : (closedBlock transferring).1 with
    | ok _ => rfl
    | error e =>
      rw [hresult] at hok
      cases hok

/-- The connection is closed under a question for the balances of a transfer, and the run ends after
the block all the same. The balances are not refreshed when it goes on. -/
theorem refresh_lost_at_shutdown :
    (closedCalls transferring).any isRefusedQuestion ∧
      (closedRun transferring).1.toOption = some (.stopped 1) ∧
      (closedRun transferring).2.checkpoint = some (Checkpoint.text 1) ∧
      (closedRun transferring).2.memory.balances = [] := by
  decide +kernel

end ChainIndex.Scan
