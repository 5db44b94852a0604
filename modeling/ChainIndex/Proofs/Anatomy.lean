import ChainIndex.Proofs.Chronicle
import ChainIndex.Proofs.EntryOrder
import ChainIndex.Proofs.StoreFailures

/-!
# The anatomy of a run

A run of a scanner is put together from three kinds of parts: requests about blocks, transactions,
receipts and the checkpoint, operations that are stored, and operations that are shown to the
observers. An operation that is stored is one that the node has told of, at the position at which
it lies in its block, and it comes in its turn, after those that lie before it. `Anatomy` is this
division of the tree of a run. What each part keeps, a run keeps.
-/

namespace ChainIndex

open Scan (Surroundings Placed asked)

namespace Program

variable {I : Interface} {ε α β γ : Type}

/-- A sequence goes on with the value of its first part, and hands on its failure. -/
theorem bind_eq_attempt_bind (p : Program I ε α) (f : α → Program I ε β) :
    p.bind f = p.attempt.bind fun r =>
      match r with
      | .ok a => f a
      | .error e => .fail e := by
  induction p with
  | done a => rfl
  | fail e => rfl
  | ask request next ih => exact congrArg (ask request) (funext ih)

/-- What goes on with the outcome of a program that goes on with an outcome. -/
theorem attempt_bind_attempt_bind (p : Program I ε α) (f : Except ε α → Program I ε β)
    (g : Except ε β → Program I ε γ) :
    (p.attempt.bind f).attempt.bind g = p.attempt.bind fun r => (f r).attempt.bind g := by
  induction p with
  | done a => rfl
  | fail e => rfl
  | ask request next ih => exact congrArg (ask request) (funext ih)

end Program

/-- The receipts of a transaction, when the node gives these for it. -/
def Transaction.received (tx : Transaction) (given : List Receipt) : List Receipt :=
  if tx.callsContract then given.map (Scan.completeReceipt tx) else []

namespace Scan

variable {ω : Type}

/-- An operation that a node tells of: one of a block that the node has given for its number, at
its position in a transaction of that block. -/
def Surroundings.Tells (env : Surroundings ω) (op : Placed) : Prop :=
  ∃ world b tx raw code p, (env.node (.block op.blockNumber) world).1 = .ok (some b) ∧
    tx ∈ (asked b op.blockNumber).transactions ∧ tx.operations[op.index]? = some raw ∧
    Operation.decode raw = .ok (code, p) ∧
    op = Entry.placed (asked b op.blockNumber) tx op.index code p

/-- The receipts with which a transaction is processed: those that a node gives, if it is asked. -/
def Surroundings.Supplies (env : Surroundings ω) (tx : Transaction) (received : List Receipt) :
    Prop :=
  ∃ world given, (tx.callsContract → (env.node (.receipts tx.id) world).1 = .ok given) ∧
    received = tx.received given

/-- An operation that a node tells of, as it is shown to the observers: with the receipt at its
position among those of its transaction. -/
def Surroundings.Shows (env : Surroundings ω) (seen : Observation) : Prop :=
  ∃ world b number tx received index raw code p,
    (env.node (.block number) world).1 = .ok (some b) ∧ tx ∈ (asked b number).transactions ∧
      env.Supplies tx received ∧ tx.operations[index]? = some raw ∧
      Operation.decode raw = .ok (code, p) ∧
      seen = Entry.seenAt (asked b number) tx received index code p

/-- Whether a request has to do with blocks, transactions, receipts or the checkpoint. -/
def Request.isOuter : Request → Bool
  | .node (.block _) | .node (.receipts _) => true
  | request => request.isFiling || request.isSettling

theorem Request.isOuter_of_own {request : Request}
    (h : (request.isFiling || request.isSettling) = true) : request.isOuter := by
  unfold Request.isOuter
  split
  · rfl
  · rfl
  · exact h

theorem Request.target?_of_isOuter {request : Request} (h : request.isOuter)
    {part : Store.Part} (htarget : request.target? = some part) : part = .blocks := by
  cases request with
  | store request => cases request <;> cases htarget <;> first | rfl | cases h
  | node | cache | cancelled => cases htarget

/-- The operations of the blocks that the node has given from one number on and before another. -/
inductive Surroundings.Brings (env : Surroundings ω) (first : Nat) : Nat → List Placed → Prop where
  | none : env.Brings first first []
  | block {next : Nat} {ops : List Placed} {b : Block} {world : ω}
      (before : env.Brings first next ops)
      (given : (env.node (.block next) world).1 = .ok (some b)) :
      env.Brings first (next + 1)
        (ops ++ (asked b next).transactions.flatMap Transaction.placed)

/-- Operations that come one after the other in the blocks from a number on. -/
def Surroundings.InTurn (env : Surroundings ω) (first : Nat) (ops : List Placed) : Prop :=
  ∃ next all, env.Brings first next all ∧ ops <+: all

/-- How the tree of a run is put together in which some operations have been stored before, and
what its values have. The operations that have been stored are always `due`. -/
inductive Anatomy (env : Surroundings ω) (caller : String) (due : List Placed → Prop) {α : Type}
    (post : List Placed → α → Prop) : List Placed → Procedure α → Prop where
  | done {before : List Placed} {a : α} (h : post before a) :
      Anatomy env caller due post before (.done a)
  | fail {before : List Placed} (e : Error) : Anatomy env caller due post before (.fail e)
  | ask {before : List Placed} {request : Request} {next : request.Reply → Procedure α}
      (outer : request.isOuter)
      (rest : ∀ s, Sound s →
        Anatomy env caller due post before (next (env.answer request s).1)) :
      Anatomy env caller due post before (.ask request next)
  /-- An operation is stored. A failure of the store ends the run, and an operation that could be
  stored was at a position that fits its column. -/
  | record {before : List Placed} {op : Placed} {next : Except Error Unit → Procedure α}
      (told : env.Tells op) (turn : due (before ++ [op]))
      (number : (op.blockNumber : Int) ≤ int64Max) (index : (op.index : Int) ≤ int32Max + 1)
      (halt : ∀ e, e.isStoreFailure → next (.error e) = .fail e)
      (rest : ∀ r, (r = .ok () → (op.index : Int) ≤ int32Max) →
        Anatomy env caller due post (before ++ [op]) (next r)) :
      Anatomy env caller due post before ((recordOperation op).attempt.bind next)
  /-- An operation is shown to the observers. -/
  | observe {before : List Placed} {seen : Observation} {next : Except Error Unit → Procedure α}
      (shown : env.Shows seen) (rest : ∀ r, Anatomy env caller due post before (next r)) :
      Anatomy env caller due post before
        ((Observer.applyAll (Observer.standard caller) seen).attempt.bind next)

/-- Operations are due one after the other. -/
def Turns (due : List Placed → Prop) (before ops : List Placed) : Prop :=
  ∀ made, made <+: ops → due (before ++ made)

theorem Turns.left {due : List Placed → Prop} {before ops ops' : List Placed}
    (h : Turns due before (ops ++ ops')) : Turns due before ops :=
  fun _ hmade => h _ (hmade.trans (List.prefix_append ops ops'))

theorem Turns.right {due : List Placed → Prop} {before ops ops' : List Placed}
    (h : Turns due before (ops ++ ops')) : Turns due (before ++ ops) ops' := by
  intro made hmade
  rw [List.append_assoc]
  exact h _ ((List.prefix_append_right_inj ops).2 hmade)

namespace Anatomy

variable {env : Surroundings ω} {caller : String} {due : List Placed → Prop} {α β : Type}
  {post : List Placed → α → Prop} {post' : List Placed → β → Prop} {before : List Placed}

/-! ## Composition -/

theorem bind {p : Procedure α} {f : α → Procedure β} (hp : Anatomy env caller due post before p)
    (hf : ∀ after a, post after a → Anatomy env caller due post' after (f a)) :
    Anatomy env caller due post' before (p.bind f) := by
  induction hp with
  | done h => exact hf _ _ h
  | fail e => exact .fail e
  | ask outer _ ih => exact .ask outer ih
  | record told turn number index halt _ ih =>
    rw [Program.bind_assoc]
    exact .record told turn number index (fun e he => by rw [halt e he, Program.fail_bind]) ih
  | observe shown _ ih =>
    rw [Program.bind_assoc]
    exact .observe shown ih

/-- What goes on with the outcome of a procedure has to pass on the failures of the store. -/
theorem attempt_bind {p : Procedure α} {f : Except Error α → Procedure β}
    (hp : Anatomy env caller due post before p)
    (halt : ∀ e, e.isStoreFailure → f (.error e) = .fail e)
    (hok : ∀ after a, post after a → Anatomy env caller due post' after (f (.ok a)))
    (herror : ∀ after e, Anatomy env caller due post' after (f (.error e))) :
    Anatomy env caller due post' before (p.attempt.bind f) := by
  induction hp with
  | done h => exact hok _ _ h
  | fail e => exact herror _ e
  | ask outer _ ih => exact .ask outer ih
  | record told turn number index hhalt _ ih =>
    rw [Program.attempt_bind_attempt_bind]
    refine .record told turn number index (fun e he => ?_) ih
    rw [hhalt e he]
    exact halt e he
  | observe shown _ ih =>
    rw [Program.attempt_bind_attempt_bind]
    exact .observe shown ih

theorem weaken {post' : List Placed → α → Prop} {p : Procedure α}
    (hp : Anatomy env caller due post before p)
    (hpost : ∀ after a, post after a → post' after a) :
    Anatomy env caller due post' before p := by
  rw [← Program.bind_done p]
  exact hp.bind fun after a ha => .done (hpost after a ha)

/-- More may be due. -/
theorem mono {due' : List Placed → Prop} {p : Procedure α}
    (hp : Anatomy env caller due post before p) (hdue : ∀ ops, due ops → due' ops) :
    Anatomy env caller due' post before p := by
  induction hp with
  | done h => exact .done h
  | fail e => exact .fail e
  | ask outer _ ih => exact .ask outer ih
  | record told turn number index halt _ ih => exact .record told (hdue _ turn) number index halt ih
  | observe shown _ ih => exact .observe shown ih

/-- A procedure that only makes outer requests. -/
theorem ofHeeds {allows : Request → Prop} {p : Procedure α} (h : Heeds allows p)
    (houter : ∀ request, allows request → request.isOuter) :
    Anatomy env caller due (fun after _ => after = before) before p := by
  induction h with
  | done a => exact .done rfl
  | fail e => exact .fail e
  | ask hallowed _ _ ih => exact .ask (houter _ hallowed) fun s _ => ih _

theorem ofFiling {p : Procedure α} (h : Heeds (·.isFiling) p) :
    Anatomy env caller due (fun after _ => after = before) before p :=
  ofHeeds h fun _ hrequest => Request.isOuter_of_own (by simp [hrequest])

theorem ofSettling {p : Procedure α} (h : Heeds (·.isSettling) p) :
    Anatomy env caller due (fun after _ => after = before) before p :=
  ofHeeds h fun _ hrequest => Request.isOuter_of_own (by simp [hrequest])

end Anatomy

/-! ## Blocks -/

section

variable (env : Surroundings ω) (interval : Nat) (caller : String) {due : List Placed → Prop}
  {before : List Placed}

open Anatomy

/-- A block that is stored has a number that fits its column. -/
theorem recordBlock_anatomy (b : Block) :
    Anatomy env caller due (fun after _ => after = before ∧ (b.number : Int) ≤ int64Max) before
      (recordBlock b) := by
  have hfiling := recordBlock_heeds b
  unfold recordBlock at hfiling ⊢
  cases hrecord : b.record with
  | error e => exact .fail e
  | ok record =>
    rw [hrecord] at hfiling
    exact (ofFiling hfiling).weaken fun _ _ h => ⟨h, (Entry.block_record hrecord).2⟩

variable {b : Block} {number : Nat} {world : ω}
  (hgiven : (env.node (.block number) world).1 = .ok (some b))
  (hnumber : (number : Int) ≤ int64Max) {tx : Transaction}
  (htx : tx ∈ (asked b number).transactions)

include hgiven hnumber htx

theorem indexOperation_anatomy {received : List Receipt} (hreceived : env.Supplies tx received)
    {index : Nat} {raw : Json}
    (hraw : tx.operations[index]? = some raw) (hindex : (index : Int) ≤ int32Max + 1)
    (hturns : Turns due before (tx.placedFrom index [raw])) :
    Anatomy env caller due
      (fun after _ => after = before ++ tx.placedFrom index [raw] ∧ (index : Int) ≤ int32Max)
      before
      (indexOperation ⟨interval, Observer.standard caller⟩ (asked b number) tx received index
        raw) := by
  unfold indexOperation
  cases hdecode : Operation.decode raw with
  | error e => exact .fail e
  | ok decoded =>
    obtain ⟨code, p⟩ := decoded
    have hplaced : tx.placedFrom index [raw] = [Entry.placed (asked b number) tx index code p] := by
      simp only [Transaction.placedFrom, List.zipIdx_cons, List.zipIdx_nil, List.filterMap_cons,
        List.filterMap_nil, hdecode, Entry.placed, blockNumber_of_mem_asked htx]
      rfl
    have htold : env.Tells (Entry.placed (asked b number) tx index code p) :=
      ⟨world, b, tx, raw, code, p, hgiven, htx, hraw, hdecode, rfl⟩
    rw [hplaced] at hturns ⊢
    simp only [Program.ofExcept, Program.bind_eq, Program.done_bind]
    rw [Program.bind_eq_attempt_bind]
    refine .record htold (hturns _ List.prefix_rfl) hnumber hindex (fun e _ => rfl) fun r hr => ?_
    cases r with
    | error e => exact .fail e
    | ok _ =>
      rw [← Program.bind_done (Observer.applyAll _ _), Program.bind_eq_attempt_bind]
      have hshown : env.Shows (Entry.seenAt (asked b number) tx received index code p) :=
        ⟨world, b, number, tx, received, index, raw, code, p, hgiven, htx, hreceived, hraw, hdecode,
          rfl⟩
      refine .observe hshown fun r => ?_
      cases r with
      | error e => exact .fail e
      | ok _ => exact .done ⟨rfl, hr rfl⟩

theorem indexOperations_anatomy {received : List Receipt} (hreceived : env.Supplies tx received)
    {index : Nat} {raws : List Json} (hraws : tx.operations.drop index = raws)
    (hindex : (index : Int) ≤ int32Max + 1)
    (hturns : Turns due before (tx.placedFrom index raws)) :
    Anatomy env caller due (fun after _ => after = before ++ tx.placedFrom index raws) before
      (indexOperations ⟨interval, Observer.standard caller⟩ (asked b number) tx received index
        raws) := by
  induction raws generalizing index before with
  | nil => exact .done (List.append_nil before).symm
  | cons raw rest ih =>
    have hraw : tx.operations[index]? = some raw := by
      rw [← List.head?_drop, hraws, List.head?_cons]
    have hrest : tx.operations.drop (index + 1) = rest := by
      rw [← List.tail_drop, hraws, List.tail_cons]
    rw [Entry.placedFrom_cons] at hturns ⊢
    refine (indexOperation_anatomy env interval caller hgiven hnumber htx hreceived hraw hindex
      hturns.left).bind fun after _ hafter => ?_
    obtain ⟨rfl, hmax⟩ := hafter
    rw [← List.append_assoc]
    exact ih hrest (by omega) hturns.right

theorem indexTransaction_anatomy (hturns : Turns due before tx.placed) :
    Anatomy env caller due (fun after _ => after = before ++ tx.placed) before
      (indexTransaction ⟨interval, Observer.standard caller⟩ (asked b number) tx) := by
  have hneeded : Anatomy env caller due
      (fun after received => after = before ∧ env.Supplies tx received) before
      (neededReceipts tx) := by
    unfold neededReceipts
    split
    · rename_i hcalls
      refine .ask rfl fun s _ => ?_
      cases hreply : (env.answer (.node (.receipts tx.id)) s).1 with
      | error e => exact .fail e
      | ok given => exact .done ⟨rfl, s.world, given, fun _ => hreply, (if_pos hcalls).symm⟩
    · rename_i hcalls
      exact .done ⟨rfl, world, [], fun h => absurd h hcalls, (if_neg hcalls).symm⟩
  refine hneeded.bind fun _ received ⟨hsame, hreceived⟩ => ?_
  subst hsame
  refine (ofFiling (recordTransaction_heeds tx)).bind fun _ _ hsame => ?_
  subst hsame
  refine (indexOperations_anatomy env interval caller hgiven hnumber htx hreceived rfl
    (by decide) hturns).bind fun _ _ hafter => ?_
  subst hafter
  exact (ofFiling (recordReceipts_heeds received)).bind fun _ _ hsame => .done hsame

omit htx in
theorem indexTransactions_anatomy {txs : List Transaction}
    (htxs : txs ⊆ (asked b number).transactions)
    (hturns : Turns due before (txs.flatMap Transaction.placed)) :
    Anatomy env caller due (fun after _ => after = before ++ txs.flatMap Transaction.placed) before
      (indexTransactions ⟨interval, Observer.standard caller⟩ (asked b number) txs) := by
  induction txs generalizing before with
  | nil => exact .done (List.append_nil before).symm
  | cons tx rest ih =>
    rw [List.flatMap_cons] at hturns ⊢
    refine (indexTransaction_anatomy env interval caller hgiven hnumber
      (htxs List.mem_cons_self) hturns.left).bind fun _ _ hafter => ?_
    subst hafter
    rw [← List.append_assoc]
    exact ih (fun _ hmem => htxs (List.mem_cons_of_mem _ hmem)) hturns.right

omit hnumber htx in
theorem indexBlock_anatomy
    (hturns : Turns due before ((asked b number).transactions.flatMap Transaction.placed)) :
    Anatomy env caller due
      (fun after _ => after = before ++ (asked b number).transactions.flatMap Transaction.placed)
      before (indexBlock ⟨interval, Observer.standard caller⟩ (asked b number)) := by
  refine (recordBlock_anatomy env caller (asked b number)).bind fun _ _ hafter => ?_
  obtain ⟨rfl, hnumber⟩ := hafter
  refine (ofFiling (recordPreviousId_heeds (asked b number))).bind fun _ _ hsame => ?_
  subst hsame
  exact indexTransactions_anatomy env interval caller hgiven hnumber (List.Subset.refl _) hturns

end

/-! ## Runs -/

section

variable (env : Surroundings ω) (interval : Nat) (caller : String) {first cursor : Nat}
  {before : List Placed}

open Anatomy

/-- Whatever follows from a visit leads to where the visit says. -/
theorem settle_anatomy {due : List Placed → Prop} {post : List Placed → Position → Prop}
    (setup : Setup) {v : Visit}
    (hpost : ∀ number position, Closing cursor v number position → post before position) :
    Anatomy env caller due post before (settle setup cursor v) := by
  have hclose : ∀ {number position}, Closing cursor v number position →
      Anatomy env caller due post before (close number position) := by
    intro number position hclosing
    refine (ofSettling (moveTo_heeds number)).bind fun _ _ hsame => .done ?_
    rw [hsame]
    exact hpost number position hclosing
  cases v with
  | cancelled => exact hclose (.stop Visit.noConfusion)
  | absent => exact hclose .wait
  | failed e =>
    show Anatomy env caller due post before (if e.isNodeFailure then _ else _)
    split
    · refine .ask rfl fun s _ => ?_
      show Anatomy env caller due post before (if env.cancelled s.world then _ else _)
      split
      · exact hclose (.stop Visit.noConfusion)
      · exact .fail e
    · exact .fail e
  | processed =>
    show Anatomy env caller due post before
      (if 0 < setup.interval ∧ cursor % setup.interval = 0 then _ else _)
    split
    · exact hclose .next
    · exact .done (hpost cursor _ .next)

/-- A round that goes on has stored the operations before the block at which it is. -/
theorem advance_anatomy (h : env.Brings first cursor before) :
    Anatomy env caller (env.InTurn first)
      (fun after position => ∀ next, position = .scanning next → env.Brings first next after)
      before (advance ⟨interval, Observer.standard caller⟩ cursor) := by
  have hsettle : ∀ {v : Visit} {after : List Placed},
      (v = .absent → env.Brings first cursor after) →
      (v = .processed → env.Brings first (cursor + 1) after) →
      Anatomy env caller (env.InTurn first)
        (fun after position => ∀ next, position = .scanning next → env.Brings first next after)
        after (settle ⟨interval, Observer.standard caller⟩ cursor v) := by
    intro v after habsent hprocessed
    refine settle_anatomy env caller _ fun number position hclosing next hnext => ?_
    cases hclosing with
    | stop => cases hnext
    | wait =>
      cases hnext
      exact habsent rfl
    | next =>
      cases hnext
      exact hprocessed rfl
  refine .ask rfl fun s _ => ?_
  show Anatomy env caller _ _ before (if env.cancelled s.world then _ else _)
  split
  · exact hsettle (v := .cancelled) nofun nofun
  refine .ask rfl fun s _ => ?_
  show Anatomy env caller _ _ before
    (((Program.ofExcept (env.node (.block cursor) s.world).1).attempt).bind _)
  cases hreply : (env.node (.block cursor) s.world).1 with
  | error e => exact hsettle (v := .failed e) nofun nofun
  | ok found =>
    cases found with
    | none => exact hsettle (v := .absent) (fun _ => h) nofun
    | some b =>
      have hturns : Turns (env.InTurn first) before
          ((asked b cursor).transactions.flatMap Transaction.placed) := fun _ hmade =>
        ⟨_, _, .block h hreply, (List.prefix_append_right_inj before).2 hmade⟩
      refine (indexBlock_anatomy env interval caller hreply hturns).attempt_bind
        (fun e he => breakOff_of_isStoreFailure he cursor) (fun after _ hafter => ?_)
        fun after e => hsettle (v := .failed e) nofun nofun
      refine hsettle (v := .processed) nofun fun _ => ?_
      rw [hafter]
      exact .block h hreply

theorem scan_anatomy (h : env.Brings first cursor before) (rounds : Nat) :
    Anatomy env caller (env.InTurn first) (fun _ _ => True) before
      (scan ⟨interval, Observer.standard caller⟩ rounds cursor) := by
  induction rounds generalizing cursor before with
  | zero => exact .done trivial
  | succ rounds ih =>
    refine (advance_anatomy env interval caller h).bind fun after position hafter => ?_
    cases position with
    | stopped last => exact .done trivial
    | scanning next => exact ih (hafter next rfl)

/-- Every run is put together in this way. -/
theorem launch_anatomy (start : Option Nat) (rounds : Nat) :
    Anatomy env caller (fun ops => ∃ first, env.InTurn first ops) (fun _ _ => True) []
      (launch ⟨interval, Observer.standard caller⟩ start rounds) := by
  refine (ofSettling (start_heeds start)).bind fun _ cursor hsame => ?_
  subst hsame
  exact (scan_anatomy env interval caller .none rounds).mono fun _ hturn => ⟨cursor, hturn⟩

end

/-! ## What a run keeps -/

section

variable {env : Surroundings ω} {s : Situation ω}

/-- Nothing is taken from the store until a procedure ends. -/
theorem run_grows {α : Type} (p : Procedure α) (s : Situation ω) :
    s.memory.Grows (Program.run env.answer p s).2.memory := by
  induction p generalizing s with
  | done a => exact Store.Memory.Grows.refl _
  | fail e => exact Store.Memory.Grows.refl _
  | ask request next ih => exact (env.answer_grows request s).trans (ih _ _)

/-- An operation that a node tells of is stored with its place, which fits the columns. -/
theorem Surroundings.Tells.fits {op : Placed} (h : env.Tells op)
    (hindex : (op.index : Int) ≤ int32Max + 1) : (Entry.row op).Fits := by
  obtain ⟨_, b, tx, raw, code, p, -, -, -, -, hop⟩ := h
  have hplaced := Entry.placedAt_locate p (asked b op.blockNumber).number tx.id op.index
  have hpayload : op.payload = locate p (asked b op.blockNumber).number tx.id op.index :=
    congrArg Placed.payload hop
  have htransaction : op.transaction = tx.id := congrArg Placed.transaction hop
  rw [← hpayload, ← htransaction] at hplaced
  refine ⟨hplaced, ?_⟩
  unfold int32Max at hindex
  unfold int64Max
  omega

/-- An outer request leaves a scanner sound. -/
theorem Sound.outer (hs : Sound s) {request : Request} (houter : request.isOuter) :
    Sound (env.answer request s).2 := by
  cases request with
  | store request =>
    have hproper : request.Proper := by
      cases request <;> trivial
    obtain ⟨detail, world, hstore⟩ | ⟨world, hstore⟩ := env.answer_store_cases request s
    · rw [hstore]
      exact hs.withWorld world
    · rw [hstore]
      exact hs.answer hproper world
  | node request => exact hs.withWorld _
  | cancelled => exact hs
  | cache request => cases houter

/-- Where the storing of an operation ends, the scanner is sound, and an operation that could be
stored was at a position that fits its column. -/
theorem recordOperation_end (hs : Sound s) {op : Placed} (hfits : (Entry.row op).Fits) :
    Sound (Program.run env.answer (recordOperation op) s).2 ∧
      ((Program.run env.answer (recordOperation op) s).1 = .ok () →
        (op.index : Int) ≤ int32Max) := by
  have henters : Enters (Frame.plain env) (fun _ => .ok []) .strict
      [.table op.typeName op.payload, .row op, .operation op] (recordOperation op)
      (fun _ _ => True) s := recordOperation_enters ⟨trivial, hs⟩ hfits
  refine ⟨henters.at_end.sound, fun hok => ?_⟩
  obtain ⟨-, -, houtcome⟩ := Program.ensures_iff.1 henters.ensures
  rw [hok] at houtcome
  have hall : ∀ entry ∈ [Entry.table op.typeName op.payload, .row op, .operation op],
      entry.Fits := by
    intro entry hentry
    rcases List.mem_cons.1 hentry with rfl | hentry
    · exact ⟨_, _, hfits.1⟩
    rcases List.mem_cons.1 hentry with rfl | hentry
    · exact hfits
    · rw [List.mem_singleton.1 hentry]
      trivial
  have hmem : Entry.operation op ∈
      [Entry.table op.typeName op.payload, .row op, .operation op] := by simp
  obtain ⟨m₁, m₂, hm₁, henter⟩ := Entry.enter_of_mem hs.memory.history hall houtcome.1 hmem
  exact Entry.enter_operation_position hm₁ henter

/-- Where the observers have been shown an operation, the scanner is sound. -/
theorem applyAll_end (hs : Sound s) (caller : String) (seen : Observation) :
    Sound (Program.run env.answer
      (Observer.applyAll (Observer.standard caller) seen) s).2 := by
  have henters : Enters (Frame.plain env) (fun _ => .ok []) .strict (Entry.ofObservation seen)
      (Observer.applyAll (Observer.standard caller) seen) (fun _ _ => True) s :=
    Observer.applyAll_enters ⟨trivial, hs⟩ caller seen
  exact henters.at_end.sound

variable {caller : String} {due : List Placed → Prop} {α : Type} {post : List Placed → α → Prop}
  {before : List Placed} {T : Situation ω → Situation ω → Prop}

/-- What the parts of a run go along, the run does, as long as something is kept that they keep as
well. -/
theorem Anatomy.along_keeping {M : Situation ω → Prop} {p : Procedure α}
    (h : Anatomy env caller due post before p)
    (houter : ∀ request s, request.isOuter → Sound s → M s →
      T s (env.answer request s).2 ∧ M (env.answer request s).2)
    (hrecord : ∀ op s, env.Tells op → Sound s → M s →
      (recordOperation op).Along env.answer T (fun _ s' => M s') s)
    (hobserve : ∀ seen s, env.Shows seen → Sound s → M s →
      (Observer.applyAll (Observer.standard caller) seen).Along env.answer T (fun _ s' => M s') s)
    (hs : Sound s) (hM : M s) : p.Along env.answer T (fun _ s' => M s') s := by
  induction h generalizing s with
  | done h => exact hM
  | fail e => exact hM
  | ask outer _ ih =>
    obtain ⟨hT, hM'⟩ := houter _ s outer hs hM
    exact ⟨hT, ih s hs (hs.outer outer) hM'⟩
  | @record _ op next told _ _ index _ _ ih =>
    obtain ⟨hsound, hposition⟩ := recordOperation_end hs (told.fits index)
    obtain ⟨hstages, hM'⟩ := Program.along_iff.1 (hrecord op s told hs hM)
    exact Program.along_bind.2 (Program.along_attempt.2
      (Program.along_iff.2 ⟨hstages, ih _ hposition hsound hM'⟩))
  | @observe _ seen next shown _ ih =>
    obtain ⟨hstages, hM'⟩ := Program.along_iff.1 (hobserve seen s shown hs hM)
    exact Program.along_bind.2 (Program.along_attempt.2
      (Program.along_iff.2 ⟨hstages, ih _ (applyAll_end hs caller seen) hM'⟩))

/-- What the parts of a run go along, the run does. -/
theorem Anatomy.along {p : Procedure α} (h : Anatomy env caller due post before p)
    (houter : ∀ request s, request.isOuter → Sound s → T s (env.answer request s).2)
    (hrecord : ∀ op s, Sound s →
      (recordOperation op).Along env.answer T (fun _ _ => True) s)
    (hobserve : ∀ seen s, Sound s →
      (Observer.applyAll (Observer.standard caller) seen).Along env.answer T (fun _ _ => True) s)
    (hs : Sound s) : p.Along env.answer T (fun _ _ => True) s :=
  h.along_keeping (M := fun _ => True)
    (fun request s outer hs _ => ⟨houter request s outer hs, trivial⟩)
    (fun op s _ hs _ => hrecord op s hs) (fun seen s _ hs _ => hobserve seen s hs) hs trivial

/-- What holds of a store that is empty, and is kept by the parts of every run, holds of whatever
scanners can make of it. -/
theorem Reachable.invariant {resting : ω → ω → Prop} {starts : Option Nat → Prop}
    {M : Situation ω → Prop} (hempty : ∀ world, M ⟨world, Store.Memory.empty, Cache.empty⟩)
    (hrestart : ∀ s world, M s → M ⟨world, s.memory, Cache.empty⟩)
    (houter : ∀ request s, request.isOuter → Sound s → M s → M (env.answer request s).2)
    (hrecord : ∀ op s, env.Tells op → Sound s → M s →
      (recordOperation op).Along env.answer (fun _ s' => M s') (fun _ s' => M s') s)
    (hobserve : ∀ caller seen s, env.Shows seen → Sound s → M s →
      (Observer.applyAll (Observer.standard caller) seen).Along env.answer (fun _ s' => M s')
        (fun _ s' => M s') s)
    (h : Reachable env resting starts s) : M s := by
  induction h with
  | empty world => exact hempty world
  | @run s s' world start interval rounds caller before _ _ moment ih =>
    have halong := (launch_anatomy env interval caller start rounds).along_keeping
      (fun request s outer hs hM => ⟨houter request s outer hs hM, houter request s outer hs hM⟩)
      hrecord (hobserve caller) (sound_of_wellFormed before.sound.memory world)
      (hrestart s world ih)
    rw [Program.moments_eq_map_stages] at moment
    obtain ⟨x, hx, rfl⟩ := List.mem_map.1 moment
    exact (Program.along_iff.1 halong).1 x hx

end

end Scan

end ChainIndex
