import ChainIndex.Proofs.LosslessText
import ChainIndex.Proofs.TracedRows
import ChainIndex.Proofs.UnfitOperations

/-!
# The ids of operations

An operation is looked for by its id before it is stored, and left out if a row with that id is
there. No two places have the same id, so an operation is only left out where a row for the very
same place was stored before. `Register` lists the operations that were handed over for storing, in
whatever else may have happened to the store meanwhile; every row is the record of one of them.
-/

namespace ChainIndex.Scan

open Store (Memory)

variable {ω : Type} {env : Surroundings ω} {s s' : Situation ω} {ops : List Placed} {op : Placed}

/-! ## Places -/

/-- Two operations have the same place in the chain. -/
structure Placed.SamePlace (op op' : Placed) : Prop where
  blockNumber : op.blockNumber = op'.blockNumber
  transaction : op.transaction = op'.transaction
  index : op.index = op'.index

/-- An id tells the block, the transaction and the position, whatever characters the transaction's
own id has. -/
theorem placeId_inj {number number' index index' : Nat} {transaction transaction' : String} :
    placeId number transaction index = placeId number' transaction' index' ↔
      number = number' ∧ transaction = transaction' ∧ index = index' := by
  refine ⟨Entry.place_of_placeId, ?_⟩
  rintro ⟨rfl, rfl, rfl⟩
  rfl

theorem Placed.samePlace_iff {op' : Placed} : op.SamePlace op' ↔ op.id = op'.id := by
  unfold Placed.id
  rw [placeId_inj]
  exact ⟨fun h => ⟨h.blockNumber, h.transaction, h.index⟩, fun h => ⟨h.1, h.2.1, h.2.2⟩⟩

/-! ## Where rows come from -/

/-- Operations that were handed over for storing, and how things stand afterwards. Storing one of
them may have been broken off at any of its moments, and whatever else has happened left the list of
operations alone. -/
inductive Register (env : Surroundings ω) : List Placed → Situation ω → Prop where
  | empty {s : Situation ω} (none : s.memory.operations = []) : Register env [] s
  | other {ops : List Placed} {s s' : Situation ω} (before : Register env ops s)
      (same : s'.memory.operations = s.memory.operations) : Register env ops s'
  | record {ops : List Placed} {op : Placed} {s s' : Situation ω} (before : Register env ops s)
      (moment : s' ∈ (recordOperation op).moments env.answer s) : Register env (ops ++ [op]) s'

/-- A request that cannot write to the list of operations leaves everything as it was. -/
theorem Register.answer (h : Register env ops s) {request : Request}
    (htarget : request.target? ≠ some .operations) : Register env ops (env.answer request s).2 :=
  h.other (env.answer_same htarget s)

/-- A row for the place of an operation is stored, and it is the record of one that was handed over
before. -/
def StoredFor (ops : List Placed) (m : Memory) (op : Placed) : Prop :=
  ∃ earlier ∈ ops, earlier.SamePlace op ∧ ∃ row ∈ m.operations, earlier.record = .ok row

/-- At every moment of storing an operation, a row that was not there before is its record. -/
theorem of_mem_operations_moments {row : OperationRecord}
    (hmoment : s' ∈ (recordOperation op).moments env.answer s) (hrow : row ∈ s'.memory.operations) :
    row ∈ s.memory.operations ∨ op.record = .ok row := by
  have hkeeps := (recordOperation_writes op).ensures env.answer
    (M := fun s' => ∀ row ∈ s'.memory.operations, row ∈ s.memory.operations ∨ op.record = .ok row)
    (fun request s₁ hwrites hs₁ row hrow => ?_) fun _ => .inl
  · exact (Program.ensures_iff.1 hkeeps).1 s' hmoment row hrow
  by_cases htarget : request.target? = some .operations
  · obtain ⟨record, hrecord, rfl⟩ := hwrites htarget
    obtain ⟨detail, world, hstore⟩ | ⟨world, hstore⟩ :=
      env.answer_store_cases (.addOperation record) s₁
    · rw [hstore] at hrow
      exact hs₁ row hrow
    · rw [hstore] at hrow
      rcases Memory.of_mem_operations hrow with hold | hnew
      · exact hs₁ row hold
      · cases hnew
        exact .inr hrecord
  · have hsame : (env.answer request s₁).2.memory.operations = s₁.memory.operations :=
      env.answer_same htarget s₁
    exact hs₁ row (hsame ▸ hrow)

/-- Every row is the record of an operation that was handed over. -/
theorem Register.origin (h : Register env ops s) :
    ∀ row ∈ s.memory.operations, ∃ op ∈ ops, op.record = .ok row := by
  induction h with
  | empty hnone =>
    rw [hnone]
    exact nofun
  | other _ hsame ih =>
    rw [hsame]
    exact ih
  | @record ops op _ _ _ hmoment ih =>
    intro row hrow
    rcases of_mem_operations_moments hmoment hrow with hold | hnew
    · obtain ⟨earlier, hearlier, hrecord⟩ := ih row hold
      exact ⟨earlier, List.mem_append_left _ hearlier, hrecord⟩
    · exact ⟨op, by simp, hnew⟩

/-- The look-up by id finds a row just where one was stored for the same place before. -/
theorem Register.operation?_isSome_iff (h : Register env ops s) :
    (s.memory.operation? op.id).isSome ↔ StoredFor ops s.memory op := by
  unfold Memory.operation?
  rw [List.find?_isSome]
  constructor
  · rintro ⟨row, hrow, hid⟩
    obtain ⟨earlier, hearlier, hrecord⟩ := h.origin row hrow
    refine ⟨earlier, hearlier, Placed.samePlace_iff.2 ?_, row, hrow, hrecord⟩
    exact (Entry.operation_record hrecord).id.symm.trans (beq_iff_eq.1 hid)
  · rintro ⟨earlier, -, hplace, row, hrow, hrecord⟩
    refine ⟨row, hrow, beq_iff_eq.2 ?_⟩
    exact (Entry.operation_record hrecord).id.trans (Placed.samePlace_iff.1 hplace)

/-! ## What scanners leave -/

/-- Whatever scanners can make of a store, its operations were handed over, whichever runs were
broken off. -/
theorem Reachable.register {resting : ω → ω → Prop} {starts : Option Nat → Prop}
    (h : Reachable env resting starts s) : ∃ ops, Register env ops s := by
  refine h.invariant (M := fun s => ∃ ops, Register env ops s) (fun _ => ⟨[], .empty rfl⟩)
    (fun s world ⟨ops, hs⟩ => ⟨ops, hs.other rfl⟩) ?_ ?_ ?_
  · rintro request s houter - ⟨ops, hs⟩
    exact ⟨ops, hs.answer fun htarget => nomatch Request.target?_of_isOuter houter htarget⟩
  · rintro op s - - ⟨ops, hs⟩
    have hmoments : ∀ s' ∈ (recordOperation op).moments env.answer s, ∃ ops, Register env ops s' :=
      fun s' hs' => ⟨_, hs.record hs'⟩
    refine Program.along_iff.2 ⟨fun x hx => hmoments x.after ?_, ?_⟩
    · rw [Program.moments_eq_map_stages]
      exact List.mem_map_of_mem hx
    · exact hmoments _ Program.run_mem_moments
  · rintro caller seen s - - ⟨ops, hs⟩
    refine (standard_heeds caller seen).along_keeping (fun request s hobserves hs => ?_)
      (⟨ops, hs⟩ : ∃ ops, Register env ops s)
    obtain ⟨ops, hs⟩ := hs
    have hs' : Register env ops (env.answer request s).2 := hs.answer fun htarget =>
      absurd (Request.target?_of_observes hobserves htarget) (by decide)
    exact ⟨⟨ops, hs'⟩, ops, hs'⟩

/-! ## What is left out -/

/-- Storing an operation adds nothing to the list of all operations. -/
def LeavesOut (env : Surroundings ω) (op : Placed) (s : Situation ω) : Prop :=
  ∀ call ∈ (recordOperation op).calls env.answer s, ∀ record,
    call.request ≠ .store (.addOperation record)

/-- The first part of storing an operation: it gets its row. -/
def enterRow (op : Placed) : Procedure Unit :=
  (WideTable.ensure op.typeName op.payload).bind fun _ =>
    (WideTable.lacksRow op.typeName op.transaction op.index).bind fun lacks =>
      if lacks then WideTable.addRow op.typeName op.payload else .done ()

/-- The second part: it is added to all operations, unless it is found there. -/
def enterAmongAll (op : Placed) : Procedure Unit :=
  (store (.operation op.id)).bind fun found =>
    if found.isSome then .done ()
    else (Program.ofExcept op.record).bind fun record => store (.addOperation record)

theorem recordOperation_eq (op : Placed) :
    recordOperation op = (enterRow op).bind fun _ => enterAmongAll op := by
  unfold enterRow
  rw [Program.bind_assoc]
  refine congrArg (Program.bind _) (funext fun _ => ?_)
  rw [Program.bind_assoc]
  refine congrArg (Program.bind _) (funext fun lacks => ?_)
  cases lacks <;> rfl

theorem enterRow_heeds (op : Placed) :
    Heeds (fun request => request.target? ≠ some .operations) (enterRow op) := by
  have hcolumns : Heeds (fun request => request.target? ≠ some .operations)
      (WideTable.columns op.typeName op.payload) :=
    (columns_heeds op.typeName op.payload).widen fun request h => h.2
  refine Program.Obeys.bind (Program.Obeys.bind hcolumns fun _ => .done _) fun _ => ?_
  refine Program.Obeys.bind (heeds_store nofun fun _ => .done _) fun lacks => ?_
  cases lacks with
  | true => exact Program.Obeys.bind hcolumns fun known => store_heeds nofun
  | false => exact .done _

/-- The second part either finds a row with the id of the operation and asks for nothing more, or it
finds none and adds the record. -/
theorem enterAmongAll_cases (h : Program.run env.answer (enterAmongAll op) s = (.ok (), s')) :
    (s.memory.operation? op.id).isSome ∧
        (∀ call ∈ (enterAmongAll op).calls env.answer s, ∀ record,
          call.request ≠ .store (.addOperation record)) ∨
      s.memory.operation? op.id = none ∧ ∃ record, op.record = .ok record ∧
        s'.memory.operations = s.memory.operations ++ [record] ∧
        ∃ call ∈ (enterAmongAll op).calls env.answer s,
          call.request = .store (.addOperation record) := by
  obtain ⟨found, s₁, hlook, hrest⟩ := Program.of_run_bind h
  have hcalls : (enterAmongAll op).calls env.answer s = _ := Program.calls_bind_of_ok hlook
  rw [calls_store] at hcalls
  rw [env.run_store] at hlook
  obtain ⟨hfound, hmemory⟩ := env.answer_of_ok (congrArg Prod.fst hlook)
  rw [hlook] at hmemory
  cases hfound
  cases hold : s.memory.operation? op.id with
  | some row =>
    refine .inl ⟨rfl, fun call hcall record hadds => ?_⟩
    rw [hcalls, hold] at hcall
    rw [List.mem_singleton.1 hcall] at hadds
    cases hadds
  | none =>
    rw [hold] at hrest hcalls
    cases hrecord : op.record with
    | error e =>
      rw [hrecord] at hrest
      cases hrest
    | ok record =>
      rw [hrecord] at hrest hcalls
      have hadd : env.answer (.store (.addOperation record)) s₁ = (.ok (), s') :=
        (env.run_store _ s₁).symm.trans hrest
      obtain ⟨hadded, hwritten⟩ := env.answer_of_ok (congrArg Prod.fst hadd)
      rw [hadd] at hwritten
      have hmade := hwritten.trans (Memory.of_free (Memory.of_written hadded))
      refine .inr ⟨rfl, record, rfl, ?_, ?_⟩
      · exact (congrArg (·.operations) hmade).trans (congrArg (·.operations ++ [record]) hmemory)
      · rw [hcalls]
        exact ⟨_, List.mem_append_right _ List.mem_cons_self, rfl⟩

/-- An operation that could be stored was left out just if it was found among all operations, and
added to them otherwise. -/
theorem leavesOut_cases (h : Program.run env.answer (recordOperation op) s = (.ok (), s')) :
    (s.memory.operation? op.id).isSome ∧ LeavesOut env op s ∨
      s.memory.operation? op.id = none ∧ ¬LeavesOut env op s ∧
        ∃ record, op.record = .ok record ∧
          s'.memory.operations = s.memory.operations ++ [record] := by
  rw [recordOperation_eq] at h
  obtain ⟨_, s₁, henter, hrest⟩ := Program.of_run_bind h
  have hcalls : (recordOperation op).calls env.answer s =
      (enterRow op).calls env.answer s ++ (enterAmongAll op).calls env.answer s₁ := by
    rw [recordOperation_eq]
    exact Program.calls_bind_of_ok henter
  have hsame : s₁.memory.operations = s.memory.operations := by
    have hkeeps : (Program.run env.answer (enterRow op) s).2.memory.operations =
        s.memory.operations :=
      (enterRow_heeds op).keeps (M := fun s' => s'.memory.operations = s.memory.operations)
        (fun request s' htarget hs' => (env.answer_same htarget s').trans hs') rfl
    rw [henter] at hkeeps
    exact hkeeps
  have hlook : s₁.memory.operation? = s.memory.operation? := by
    unfold Memory.operation?
    rw [hsame]
  rcases enterAmongAll_cases hrest with ⟨hfound, hnone⟩ | ⟨hnone, record, hrecord, hadds, hcall⟩
  · refine .inl ⟨hlook ▸ hfound, fun call hmem record => ?_⟩
    rw [hcalls] at hmem
    rcases List.mem_append.1 hmem with hrow | hrest
    · rintro hadds
      exact (enterRow_heeds op).allowed call hrow (hadds ▸ rfl)
    · exact hnone call hrest record
  · obtain ⟨call, hmem, hrequest⟩ := hcall
    refine .inr ⟨hlook ▸ hnone, fun hleft => ?_, record, hrecord, hsame ▸ hadds⟩
    refine hleft call ?_ record hrequest
    rw [hcalls]
    exact List.mem_append_right _ hmem

/-- Ids are equal just if block, transaction and position are. Whatever has become of the operations
that were handed over, the look-up finds a row just where one of them is stored for the same place.
So an operation that is stored is left out of all operations just if a row for its very place was
stored before, and its record is added otherwise. -/
theorem operations_left_out_iff_stored (env : Surroundings ω) :
    (∀ (number number' index index' : Nat) (transaction transaction' : String),
      placeId number transaction index = placeId number' transaction' index' ↔
        number = number' ∧ transaction = transaction' ∧ index = index') ∧
      ∀ ops s op, Register env ops s →
        ((s.memory.operation? op.id).isSome ↔ StoredFor ops s.memory op) ∧
        ((Program.run env.answer (recordOperation op) s).1 = .ok () →
          (LeavesOut env op s ↔ StoredFor ops s.memory op) ∧
          (¬StoredFor ops s.memory op → ∃ record, op.record = .ok record ∧
            (Program.run env.answer (recordOperation op) s).2.memory.operations =
              s.memory.operations ++ [record])) := by
  refine ⟨fun _ _ _ _ _ _ => placeId_inj, fun ops s op h => ?_⟩
  have hfound : (s.memory.operation? op.id).isSome ↔ StoredFor ops s.memory op :=
    h.operation?_isSome_iff
  refine ⟨hfound, fun hok => ?_⟩
  have hrun : Program.run env.answer (recordOperation op) s =
    (.ok (), (Program.run env.answer (recordOperation op) s).2) := Prod.ext hok rfl
  rcases leavesOut_cases hrun with ⟨hsome, hleft⟩ | ⟨hnone, hnot, hadded⟩
  · exact ⟨iff_of_true hleft (hfound.1 hsome), fun hnew => absurd (hfound.1 hsome) hnew⟩
  · rw [hnone] at hfound
    exact ⟨iff_of_false hnot fun hstored => (nomatch hfound.2 hstored), fun _ => hadded⟩

/-- Operations without a payload of their own, at the first place of a transaction in block 1. -/
def inTransaction (id : String) : Placed := Placed.ofDecoded 1 id 0 0 0 (locate .empty 1 id 0)

/-- What becomes of an empty store to which an operation of a transaction is handed over. -/
def storedOnce (id : String) : Situation Unit :=
  (Program.run undisturbed.answer (recordOperation (inTransaction id))
    ⟨(), Memory.empty, Cache.empty⟩).2

/-- A transaction whose id has the delimiter is known again, and not taken for another one whose id
is the part before the delimiter. -/
theorem delimiters_told_apart :
    Register undisturbed [inTransaction "t@0"] (storedOnce "t@0") ∧
      LeavesOut undisturbed (inTransaction "t@0") (storedOnce "t@0") ∧
      ¬LeavesOut undisturbed (inTransaction "t") (storedOnce "t@0") ∧
      placeId 1 "t@0" 0 ≠ placeId 1 "t" 0 := by
  have hregister : Register undisturbed [inTransaction "t@0"] (storedOnce "t@0") :=
    .record (.empty rfl) Program.run_mem_moments
  have hruns : ∀ id ∈ ["t@0", "t"], (Program.run undisturbed.answer
      (recordOperation (inTransaction id)) (storedOnce "t@0")).1 = .ok () := by
    intro id hid
    simp only [List.mem_cons, List.not_mem_nil, or_false] at hid
    rcases hid with rfl | rfl <;> exact Program.eq_ok_of_toBool (by decide +kernel)
  obtain ⟨hids, hleft⟩ := operations_left_out_iff_stored undisturbed
  obtain ⟨hfound, hagain⟩ := hleft _ _ (inTransaction "t@0") hregister
  obtain ⟨-, hother⟩ := hleft _ _ (inTransaction "t") hregister
  have hagain := (hagain (hruns "t@0" (by simp))).1
  have hother := (hother (hruns "t" (by simp))).1
  refine ⟨hregister, hagain.2 (hfound.1 (by decide +kernel)), fun hskips => ?_,
    fun hsame => absurd ((hids _ _ _ _ _ _).1 hsame).2.1 (by decide)⟩
  obtain ⟨earlier, hearlier, hplace, -⟩ := hother.1 hskips
  rw [List.mem_singleton.1 hearlier] at hplace
  exact absurd hplace.transaction (by decide)

end ChainIndex.Scan
