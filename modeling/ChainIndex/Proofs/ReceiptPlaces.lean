import ChainIndex.Proofs.TableFounders
import ChainIndex.Proofs.TransferHistory
import Mathlib.Tactic.IntervalCases

/-!
# Receipts and their operations

A node lists the receipts of a transaction in the order of its operations. The observers are shown
the receipt at the position of an operation, and a receipt is stored under the position that it names
itself. Where each receipt that belongs to a position of the transaction names that position, the two
are the same, and nowhere else.
-/

namespace ChainIndex

open Scan (completeReceipt)
open Store (Memory)

/-! ## Receipts under their keys -/

/-- Whether a receipt names this operation. -/
def Receipt.isOf (transaction : String) (operation : Int) (r : Receipt) : Bool :=
  r.transaction == transaction && (r.operation : Int) == operation

/-- The record of a receipt whose numbers fit. -/
def Receipt.record? (r : Receipt) : Option ReceiptRecord := r.records.toOption.map (·.1)

/-- The receipt that is stored for an operation. -/
def Store.Memory.receipt? (m : Memory) (transaction : String) (operation : Int) :
    Option ReceiptRecord :=
  m.receipts.find? fun r => r.transaction == transaction && r.operation == operation

/-- Receipts that lie at the positions they name, as far as there are operations. -/
def Transaction.Aligned (tx : Transaction) (received : List Receipt) : Prop :=
  ∀ i r, i < tx.operations.length → received[i]? = some r → r.isOf tx.id i

theorem Store.Memory.receipt?_isSome (m : Memory) (transaction : String) (operation : Int) :
    (m.receipt? transaction operation).isSome = m.hasReceipt transaction operation :=
  List.isSome_find?

/-- A record is stored under the operation that its receipt names. -/
theorem Receipt.records_place {r : Receipt} {record : ReceiptRecord} {events : List EventRecord}
    (h : r.records = .ok (record, events)) :
    record.transaction = r.transaction ∧ record.operation = r.operation := by
  obtain ⟨number, -, h⟩ := Entry.of_bind h
  obtain ⟨operation, hoperation, h⟩ := Entry.of_bind h
  obtain ⟨fee, -, h⟩ := Entry.of_bind h
  obtain ⟨told, -, h⟩ := Entry.of_bind h
  cases h
  exact ⟨rfl, (Entry.int32_ok hoperation).1⟩

theorem Receipt.isOf_of_records {r : Receipt} {record : ReceiptRecord} {events : List EventRecord}
    (h : r.records = .ok (record, events)) (transaction : String) (operation : Int) :
    r.isOf transaction operation =
      (record.transaction == transaction && record.operation == operation) := by
  obtain ⟨htransaction, hoperation⟩ := Receipt.records_place h
  rw [htransaction, hoperation]
  rfl

theorem Receipt.record?_of_records {r : Receipt} {record : ReceiptRecord}
    {events : List EventRecord} (h : r.records = .ok (record, events)) : r.record? = some record := by
  unfold Receipt.record?
  rw [h]
  rfl

/-- In a list whose receipts lie at the positions that they name, the one at a position is the
first that names it. -/
theorem Transaction.aligned_iff {tx : Transaction} {received : List Receipt} :
    tx.Aligned received ↔ ∀ i, i < tx.operations.length →
      received[i]? = received.find? (·.isOf tx.id i) := by
  constructor
  · intro h i hi
    -- nothing before the position names it
    have hbefore : ∀ j r, j < i → received[j]? = some r → r.isOf tx.id i = false := by
      intro j r hj hr
      have hother := h j r (Nat.lt_trans hj hi) hr
      simp only [Receipt.isOf, Bool.and_eq_true, beq_iff_eq] at hother
      simp only [Receipt.isOf, hother.2, Bool.and_eq_false_iff, beq_eq_false_iff_ne]
      right
      omega
    cases hr : received[i]? with
    | none =>
      refine (List.find?_eq_none.2 fun r hmem hof => ?_).symm
      obtain ⟨j, hj⟩ := List.mem_iff_getElem?.1 hmem
      have hlt : j < i := by
        have hlength := (List.getElem?_eq_some_iff.1 hj).1
        have hshort := List.getElem?_eq_none_iff.1 hr
        omega
      rw [hbefore j r hlt hj] at hof
      cases hof
    | some r =>
      refine (List.find?_eq_some_iff_getElem.2 ⟨h i r hi hr, i, ?_⟩).symm
      obtain ⟨hlength, hget⟩ := List.getElem?_eq_some_iff.1 hr
      refine ⟨hlength, hget, fun j hj => ?_⟩
      rw [hbefore j received[j] hj (List.getElem?_eq_getElem _)]
      rfl
  · intro h i r hi hr
    exact List.find?_some ((h i hi).symm.trans hr)

/-! ## What observers are told -/

/-- An observer that goes by what it is told about the receipt of an operation, whatever it is
shown. -/
def Observer.told {I : Interface} (receiptOf : Nat → Option Receipt) (observer : Observer I) :
    Observer I :=
  ⟨observer.name, fun seen => observer.apply { seen with receipt := receiptOf seen.index }⟩

theorem Observer.applyAll_told {I : Interface} (receiptOf : Nat → Option Receipt)
    (observers : List (Observer I)) (seen : Observation) :
    Observer.applyAll (observers.map (·.told receiptOf)) seen =
      Observer.applyAll observers { seen with receipt := receiptOf seen.index } := by
  induction observers with
  | nil => rfl
  | cons observer rest ih =>
    show (Observer.passOver _).bind (fun _ => Observer.applyAll (rest.map _) seen) = _
    rw [ih]
    rfl

namespace Scan

/-- A setup whose observers go by what they are told about the receipts of operations. -/
def Setup.told (receiptOf : Nat → Option Receipt) (setup : Setup) : Setup :=
  { setup with observers := setup.observers.map (·.told receiptOf) }

section

variable {receiptOf : Nat → Option Receipt} {received : List Receipt} (setup : Setup) (b : Block)
  (tx : Transaction)

theorem indexOperation_told {position : Nat} (h : receiptOf position = received[position]?)
    (raw : Json) :
    indexOperation (setup.told receiptOf) b tx received position raw =
      indexOperation setup b tx received position raw := by
  unfold indexOperation Setup.told
  simp only [Observer.applyAll_told, h]

/-- It makes no difference to tell the observers what they are shown. -/
theorem indexOperations_told {position : Nat} {raws : List Json}
    (h : ∀ i, i < position + raws.length → receiptOf i = received[i]?) :
    indexOperations (setup.told receiptOf) b tx received position raws =
      indexOperations setup b tx received position raws := by
  induction raws generalizing position with
  | nil => rfl
  | cons raw rest ih =>
    unfold indexOperations
    have hfirst : receiptOf position = received[position]? := h position (by simp)
    have hrest : ∀ i, i < position + 1 + rest.length → receiptOf i = received[i]? := by
      intro i hi
      exact h i (by simp only [List.length_cons]; omega)
    rw [indexOperation_told setup b tx hfirst raw, ih hrest]

end

variable {ω : Type} {env : Surroundings ω}

/-- A transaction is processed with the receipts that the node gives for it. -/
theorem neededReceipts_run {tx : Transaction} {given : List Receipt} {s : Situation ω}
    (hreply : tx.callsContract → (env.node (.receipts tx.id) s.world).1 = .ok given) :
    ∃ world, Program.run env.answer (neededReceipts tx) s =
      (.ok (tx.received given), { s with world }) := by
  unfold neededReceipts Transaction.received
  by_cases hcalls : tx.callsContract
  · refine ⟨(env.node (.receipts tx.id) s.world).2, ?_⟩
    rw [if_pos hcalls, if_pos hcalls]
    show Program.run env.answer
      ((Program.ofExcept (env.node (.receipts tx.id) s.world).1).bind _) _ = _
    rw [hreply hcalls]
    rfl
  · rw [if_neg hcalls, if_neg hcalls]
    exact ⟨s.world, rfl⟩

theorem indexTransaction_run {tx : Transaction} {given : List Receipt} {s : Situation ω}
    (hreply : tx.callsContract → (env.node (.receipts tx.id) s.world).1 = .ok given) :
    ∃ world, ∀ (setup : Setup) (b : Block),
      Program.run env.answer (indexTransaction setup b tx) s =
        Program.run env.answer
          ((recordTransaction tx).bind fun _ =>
            (indexOperations setup b tx (tx.received given) 0 tx.operations).bind fun _ =>
              (recordReceipts (tx.received given)).bind fun _ => .done ())
          { s with world } := by
  obtain ⟨world, hneeded⟩ := neededReceipts_run hreply
  refine ⟨world, fun setup b => ?_⟩
  show Program.run env.answer ((neededReceipts tx).bind _) s = _
  rw [Program.run_bind, hneeded]
  rfl

/-! ## What is stored -/

/-- Whether a request writes receipts. -/
def Request.isReceiptWrite : Request → Bool
  | .store (.addReceipt _ _) => true
  | _ => false

theorem answer_receipts {request : Request} (h : request.isReceiptWrite = false)
    (s : Situation ω) : (env.answer request s).2.memory.receipts = s.memory.receipts := by
  have hanswer : ∀ (request : Store.Request) (m : Memory),
      Request.isReceiptWrite (.store request) = false →
        (Memory.answer request m).2.receipts = m.receipts := by
    intro request m h
    cases request with
    | addReceipt => cases h
    | addBlock | addTransaction | addOperation | addAccount | addToken | addTransfer =>
      apply Store.Memory.written_keeps (P := (·.receipts = m.receipts)) rfl
      intro m' hadd
      rw [Store.Memory.of_free hadd]
    | addRow name row =>
      apply Store.Memory.written_keeps (P := (·.receipts = m.receipts)) rfl
      intro m' hadd
      obtain ⟨table, -, rfl⟩ := Store.Memory.of_addRow hadd
      rfl
    | addTable | addAsset =>
      simp only [Memory.answer, Memory.addTable, Memory.addAsset]
      split <;> rfl
    | hasRow =>
      simp only [Memory.answer]
      split <;> rfl
    | _ => rfl
  cases request with
  | store request =>
    obtain ⟨detail, world, hstore⟩ | ⟨world, hstore⟩ := env.answer_store_cases request s
    · rw [hstore]
    · rw [hstore]
      exact hanswer request s.memory h
  | node | cache | cancelled => rfl

theorem Request.isReceiptWrite_of_files {kind : Filed} {request : Request}
    (h : request.files kind) (hkind : kind ≠ .receipts) : request.isReceiptWrite = false := by
  cases request with
  | store request =>
    cases kind <;> cases request <;> first | rfl | exact absurd rfl hkind | cases h
  | node | cache | cancelled => rfl

theorem Request.isReceiptWrite_of_handles {request : Request} (h : request.Handles) :
    request.isReceiptWrite = false := by
  cases request with
  | store request =>
    cases request with
    | addReceipt =>
      rcases h with ⟨table, h⟩ | h
      · exact h.elim
      · cases h
    | _ => rfl
  | node | cache | cancelled => rfl

/-- A store that has answered a request has been asked. -/
theorem answer_of_run {request : Store.Request} {v : request.Result} {s s' : Situation ω}
    (h : Program.run env.answer (store request) s = (.ok v, s')) :
    Memory.answer request s.memory = (.ok v, s'.memory) := by
  rw [env.run_store] at h
  obtain ⟨hreply, hmemory⟩ := env.answer_of_ok (congrArg Prod.fst h)
  rw [h] at hmemory
  exact Prod.ext hreply hmemory.symm

/-- A receipt is stored under its key, if that was free. -/
theorem addReceipt_stores {record : ReceiptRecord} {events : List EventRecord} {s s' : Situation ω}
    (hfree : s.memory.hasReceipt record.transaction record.operation = false)
    (h : Program.run env.answer (store (.addReceipt record events)) s = (.ok (), s'))
    (transaction : String) (operation : Int) :
    s'.memory.receipt? transaction operation =
      (s.memory.receipt? transaction operation).or
        (if record.transaction == transaction && record.operation == operation then some record
          else none) := by
  have hwritten := answer_of_run h
  rw [Memory.answer, Store.Memory.addReceipt_of_none events hfree] at hwritten
  have hadded : s'.memory.receipts = s.memory.receipts ++ [record] :=
    congrArg (·.2.receipts) hwritten.symm
  simp only [Store.Memory.receipt?, hadded, List.find?_append, List.find?_singleton]

/-- A list of receipts that could be stored is stored under the keys that were free, the first
receipt for each. -/
theorem recordReceipts_stores {received : List Receipt} {n : Nat} {s s' : Situation ω}
    (h : Program.run env.answer (recordReceipts received) s = (.ok n, s')) (transaction : String)
    (operation : Int) :
    s'.memory.receipt? transaction operation =
      (s.memory.receipt? transaction operation).or
        ((received.find? (·.isOf transaction operation)).bind (·.record?)) := by
  induction received generalizing s n with
  | nil =>
    cases h
    simp
  | cons r rest ih =>
    unfold recordReceipts at h
    cases hrecords : r.records with
    | error e =>
      rw [hrecords] at h
      cases h
    | ok records =>
      obtain ⟨record, events⟩ := records
      have hof := Receipt.isOf_of_records hrecords transaction operation
      rw [hrecords] at h
      simp only [Program.ofExcept, Program.bind_eq, Program.done_bind] at h
      obtain ⟨there, s₁, hask, h⟩ := Program.of_run_bind h
      have hasked := answer_of_run hask
      have hthere : s.memory.hasReceipt record.transaction record.operation = there :=
        Except.ok.inj (congrArg Prod.fst hasked)
      have hsame : s₁.memory = s.memory := (congrArg Prod.snd hasked).symm
      rw [← hsame] at hthere ⊢
      cases there with
      | true =>
        rw [ih h, List.find?_cons]
        cases hnames : r.isOf transaction operation with
        | false => rfl
        | true =>
          -- the key is taken
          rw [hof, Bool.and_eq_true, beq_iff_eq, beq_iff_eq] at hnames
          rw [hnames.1, hnames.2, ← Store.Memory.receipt?_isSome] at hthere
          obtain ⟨old, hold⟩ := Option.isSome_iff_exists.1 hthere
          simp [hold]
      | false =>
        obtain ⟨_, s₂, hwrite, h⟩ := Program.of_run_bind h
        obtain ⟨_, s₃, hrest, h⟩ := Program.of_run_bind h
        cases h
        rw [ih hrest, addReceipt_stores hthere hwrite, ← hof, Option.or_assoc, List.find?_cons]
        cases r.isOf transaction operation with
        | false => simp
        | true => simp [Receipt.record?_of_records hrecords]

/-- Only at the end of a transaction are receipts stored. -/
theorem indexTransaction_stores (interval : Nat) (caller : String) (b : Block) {tx : Transaction}
    {given : List Receipt} {s s' : Situation ω}
    (hreply : tx.callsContract → (env.node (.receipts tx.id) s.world).1 = .ok given)
    (h : Program.run env.answer
      (indexTransaction ⟨interval, Observer.standard caller⟩ b tx) s = (.ok (), s'))
    (transaction : String) (operation : Int) :
    s'.memory.receipt? transaction operation =
      (s.memory.receipt? transaction operation).or
        (((tx.received given).find? (·.isOf transaction operation)).bind (·.record?)) := by
  obtain ⟨world, hprocess⟩ := indexTransaction_run hreply
  rw [hprocess] at h
  obtain ⟨_, s₁, hfirst, h⟩ := Program.of_run_bind h
  obtain ⟨_, s₂, hsecond, h⟩ := Program.of_run_bind h
  obtain ⟨n, s₃, hlast, h⟩ := Program.of_run_bind h
  cases h
  have hkeep : ∀ (request : Request) (s' : Situation ω), request.isReceiptWrite = false →
      s'.memory.receipts = s.memory.receipts →
        (env.answer request s').2.memory.receipts = s.memory.receipts :=
    fun request s' hrequest hs' => (answer_receipts hrequest s').trans hs'
  have hs₁ : s₁.memory.receipts = s.memory.receipts := by
    have hkept : (Program.run env.answer (recordTransaction tx)
        { s with world }).2.memory.receipts = s.memory.receipts :=
      (recordTransaction_files tx).keeps
        (M := fun s' : Situation ω => s'.memory.receipts = s.memory.receipts)
        (fun request s' h => hkeep request s' (Request.isReceiptWrite_of_files h nofun)) rfl
    rwa [hfirst] at hkept
  have hs₂ : s₂.memory.receipts = s.memory.receipts := by
    have hkept : (Program.run env.answer (indexOperations ⟨interval, Observer.standard caller⟩ b tx
        (tx.received given) 0 tx.operations) s₁).2.memory.receipts = s.memory.receipts :=
      (indexOperations_handles interval caller b tx (tx.received given) 0 tx.operations).keeps
        (M := fun s' : Situation ω => s'.memory.receipts = s.memory.receipts)
        (fun request s' h => hkeep request s' (Request.isReceiptWrite_of_handles h)) hs₁
    rwa [hsecond] at hkept
  rw [recordReceipts_stores hlast]
  simp only [Store.Memory.receipt?, hs₂]

/-- The observers are shown the receipt at the position of an operation, whatever that receipt
names, and a receipt is stored under what it names, unless that has a receipt. If the receipts lie at
the positions that they name, the receipt that is shown with an operation is the one that is stored
for it, and an operation that no receipt names is shown without one. -/
theorem receipts_go_by_position (env : Surroundings ω) (interval : Nat) (caller : String) (b : Block)
    (tx : Transaction) {given : List Receipt} {s : Situation ω}
    (hreply : tx.callsContract → (env.node (.receipts tx.id) s.world).1 = .ok given) :
    let received := tx.received given
    let process (setup : Setup) := (indexTransaction setup b tx).run env.side s
    let standard : Setup := ⟨interval, Observer.standard caller⟩
    (∀ setup, process (setup.told fun i => received[i]?) = process setup) ∧
      (∀ s', process standard = (.ok (), s') → ∀ transaction operation,
        s'.memory.receipt? transaction operation =
          (s.memory.receipt? transaction operation).or
            ((received.find? (·.isOf transaction operation)).bind (·.record?))) ∧
      (tx.Aligned received →
        (∀ setup, process (setup.told fun i => received.find? (·.isOf tx.id i)) = process setup) ∧
          ∀ s', process standard = (.ok (), s') → ∀ i, i < tx.operations.length →
            s'.memory.receipt? tx.id i =
              (s.memory.receipt? tx.id i).or (received[i]?.bind (·.record?))) := by
  intro received process standard
  obtain ⟨world, hprocess⟩ := indexTransaction_run hreply
  have htold : ∀ receiptOf : Nat → Option Receipt,
      (∀ i, i < tx.operations.length → receiptOf i = received[i]?) →
        ∀ setup, process (setup.told receiptOf) = process setup := by
    intro receiptOf hsame setup
    have hoperations : indexOperations (setup.told receiptOf) b tx received 0 tx.operations =
        indexOperations setup b tx received 0 tx.operations :=
      indexOperations_told setup b tx fun i hi => hsame i (by omega)
    refine (hprocess (setup.told receiptOf) b).trans ?_
    rw [hoperations]
    exact (hprocess setup b).symm
  have hstored : ∀ s', process standard = (.ok (), s') → ∀ transaction operation,
      s'.memory.receipt? transaction operation =
        (s.memory.receipt? transaction operation).or
          ((received.find? (·.isOf transaction operation)).bind (·.record?)) :=
    fun s' hrun => indexTransaction_stores interval caller b hreply hrun
  refine ⟨htold _ fun _ _ => rfl, hstored, fun haligned => ?_⟩
  have hfirst := Transaction.aligned_iff.1 haligned
  refine ⟨htold _ fun i hi => (hfirst i hi).symm, fun s' hrun i hi => ?_⟩
  rw [hstored s' hrun, hfirst i hi]

/-! ## A receipt that is out of place -/

/-- A transaction with two calls of contracts. -/
def selling : Transaction :=
  let call : Json := .arr [.int 78, .obj []]
  { id := "sale", blockNumber := 2, operations := [call, call] }

/-- The second call has transferred tokens. -/
def soldLast : Receipt where
  operation := 1
  succeeded := true
  events := [
    { contract := "coin", name := "Transfer",
      argument := "\x7b\"from\":\"owner\",\"to\":\"buyer\",\"amount\":5\x7d" }]

/-- Surroundings in which there is nothing but these receipts. -/
def receipted (given : List Receipt) : Surroundings Unit :=
  .steady fun
    | .receipts _ => .ok given
    | .block _ | .invoke _ _ _ _ | .assets _ _ | .balances _ => .error (.node "closed")

/-- What the transaction comes to when the node gives these receipts. -/
def sellingRun (given : List Receipt) (setup : Setup) : Except Error Unit × Situation Unit :=
  (indexTransaction setup { number := 2, timestamp := "2019-03-04T05:06:12" } selling).run
    (receipted given).side coined

/-- What it comes to with the standard observers. -/
def soldAs (given : List Receipt) : Except Error Unit × Situation Unit :=
  sellingRun given ⟨1, Observer.standard "caller"⟩

/-- What it would come to if the observers were shown the receipts that name their operations. -/
def soldByName (given : List Receipt) : Except Error Unit × Situation Unit :=
  sellingRun given (Setup.told (fun i => (selling.received given).find? (·.isOf "sale" i))
    ⟨1, Observer.standard "caller"⟩)

/-- The receipt of the second operation, when it is the only one, is stored for that operation and
shown with the first, and the transfer is recorded for the first. -/
theorem receipt_shown_with_other_operation :
    (soldAs [soldLast]).1.toBool ∧
      (soldAs [soldLast]).2.memory.receipts.map (·.operation) = [1] ∧
      (soldAs [soldLast]).2.memory.transfers.map (·.operation) = [0] ∧
      (soldByName [soldLast]).1.toBool ∧
      (soldByName [soldLast]).2.memory.receipts.map (·.operation) = [1] ∧
      (soldByName [soldLast]).2.memory.transfers.map (·.operation) = [1] := by
  decide +kernel

/-- Receipts of both operations in their order. -/
def bothSold : List Receipt := [{}, soldLast]

theorem bothSold_ok : (soldAs bothSold).1 = .ok () := by
  have hok : (soldAs bothSold).1.toBool := by decide +kernel
  cases hend : (soldAs bothSold).1 with
  | ok a => rfl
  | error e =>
    rw [hend] at hok
    cases hok

theorem receipts_shown_in_place :
    selling.Aligned (selling.received bothSold) ∧
      (soldAs bothSold).2.memory.transfers.map (·.operation) = [1] ∧
      soldByName bothSold = soldAs bothSold ∧
      ∀ i, i < selling.operations.length →
        (soldAs bothSold).2.memory.receipt? "sale" i =
          ((selling.received bothSold)[i]?).bind (·.record?) := by
  have haligned : selling.Aligned (selling.received bothSold) := by
    intro i r hi hr
    have hi : i < 2 := hi
    interval_cases i <;> cases hr <;> rfl
  have hrun : soldAs bothSold = (.ok (), (soldAs bothSold).2) := by rw [← bothSold_ok]
  have hplaced := (receipts_go_by_position (receipted bothSold) 1 "caller"
    { number := 2, timestamp := "2019-03-04T05:06:12" } selling (s := coined)
    fun _ => rfl).2.2 haligned
  exact ⟨haligned, by decide +kernel, hplaced.1 _, hplaced.2 _ hrun⟩

end Scan

end ChainIndex
