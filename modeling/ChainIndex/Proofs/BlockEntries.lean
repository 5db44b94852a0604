import ChainIndex.Proofs.EntriesMade

/-!
# The entries of a block

The entries of a block fit, and they come in an order in which each may follow those before it. None
of them fails like a store: what can fail is data that cannot be decoded or does not fit a column,
or a node that does not give the receipts. No entry comes after an operation whose position does not
fit its column, since that operation always fails.
-/

namespace ChainIndex.Entry

open Scan (Placed placeId)
open Store (Memory)

/-! ## Failures -/

theorem error_of_bind {α β : Type} {x : Except Error α} {f : α → Except Error β} {e : Error}
    (h : (x >>= f) = .error e) : x = .error e ∨ ∃ a, x = .ok a ∧ f a = .error e := by
  cases x with
  | error e' =>
    cases h
    exact .inl rfl
  | ok a => exact .inr ⟨a, rfl, h⟩

/-- A computation that does not fail like a store. -/
def Decodes {α : Type} (x : Except Error α) : Prop := ∀ e, x = .error e → e.isStoreFailure = false

theorem decodes_ok {α : Type} (a : α) : Decodes (.ok a) := fun _ h => nomatch h

theorem Decodes.bind {α β : Type} {x : Except Error α} {f : α → Except Error β} (hx : Decodes x)
    (hf : ∀ a, Decodes (f a)) : Decodes (x >>= f) := by
  intro e h
  rcases error_of_bind h with h | ⟨a, -, h⟩
  · exact hx e h
  · exact hf a e h

theorem decodes_int32 (what : Quantity) (n : Int) : Decodes (what.int32 n) := by
  intro e h
  unfold Quantity.int32 at h
  split at h <;> cases h
  rfl

theorem decodes_int64 (what : Quantity) (n : Int) : Decodes (what.int64 n) := by
  intro e h
  unfold Quantity.int64 at h
  split at h <;> cases h
  rfl

theorem decodes_blockRecord (b : Block) : Decodes b.record := by
  apply (decodes_int64 _ _).bind
  intro number
  apply (decodes_int64 _ _).bind
  intro fee
  exact (decodes_int32 _ _).bind fun count => decodes_ok _

theorem decodes_transactionRecord (tx : Transaction) : Decodes tx.record := by
  apply (decodes_int64 _ _).bind
  intro number
  apply (decodes_int64 _ _).bind
  intro refNumber
  apply (decodes_int64 _ _).bind
  intro refPrefix
  apply (decodes_int32 _ _).bind
  intro count
  apply (decodes_int32 _ _).bind
  intro index
  exact (decodes_int32 _ _).bind fun leading => decodes_ok _

theorem decodes_operationRecord (op : Placed) : Decodes op.record := by
  apply (decodes_int64 _ _).bind
  intro number
  apply (decodes_int32 _ _).bind
  intro transactionIndex
  apply (decodes_int32 _ _).bind
  intro index
  exact (decodes_int32 _ _).bind fun typeCode => decodes_ok _

theorem decodes_eventRecord (transaction : String) (told : Event) :
    Decodes (told.record transaction) := by
  apply (decodes_int64 _ _).bind
  intro number
  exact (decodes_int32 _ _).bind fun position => decodes_ok _

theorem decodes_eventRecords (transaction : String) (events : List Event) :
    Decodes (events.mapM (Event.record transaction)) := by
  induction events with
  | nil => exact decodes_ok _
  | cons told rest ih =>
    rw [List.mapM_cons]
    apply (decodes_eventRecord transaction told).bind
    intro first
    exact ih.bind fun others => decodes_ok _

theorem decodes_receiptRecords (outcome : Receipt) : Decodes outcome.records := by
  apply (decodes_int64 _ _).bind
  intro number
  apply (decodes_int32 _ _).bind
  intro position
  apply (decodes_int64 _ _).bind
  intro fee
  exact (decodes_eventRecords _ _).bind fun events => decodes_ok _

theorem decodes_decode (raw : Json) : Decodes (Operation.decode raw) := by
  intro e h
  unfold Operation.decode at h
  split at h
  · split at h
    · cases h
      rfl
    · split at h <;> cases h
      rfl
  · cases h
    rfl
  · cases h
    rfl

/-- An entry that fits does not fail like a store, unless it is a refusal. -/
theorem enter_decodes {m : Memory} (hm : m.WellFormed) {entry : Entry}
    (hrefusal : ∀ e, entry = .refusal e → e.isStoreFailure = false) : Decodes (entry.enter m) := by
  cases entry with
  | refusal e =>
    intro e' h
    cases h
    exact hrefusal e rfl
  | block b =>
    apply (decodes_blockRecord b).bind
    intro record
    split
    · exact decodes_ok _
    · rename_i hnone
      rw [Store.Memory.addBlock_of_none (Option.not_isSome_iff_eq_none.1 hnone)]
      exact decodes_ok _
  | previousId b =>
    simp only [enter]
    split
    · exact decodes_ok _
    · apply (decodes_int64 _ _).bind
      intro number
      split
      · exact decodes_ok _
      · split <;> exact decodes_ok _
  | transaction tx =>
    simp only [enter]
    split
    · exact decodes_ok _
    · rename_i hnone
      intro e h
      rcases error_of_bind h with h | ⟨record, hrecord, h⟩
      · exact decodes_transactionRecord tx e h
      · rw [← (transaction_record hrecord).1] at hnone
        rw [Store.Memory.addTransaction_of_none (Option.not_isSome_iff_eq_none.1 hnone)] at h
        cases h
  | table typeName sample => exact decodes_ok _
  | row op =>
    simp only [enter]
    split
    · exact decodes_ok _
    · rw [addRow_row (by rw [Memory.addTable_failing, hm.failing]) (addTable_tableFor m op)]
      exact decodes_ok _
  | operation op =>
    simp only [enter]
    split
    · exact decodes_ok _
    · rename_i hnone
      intro e h
      rcases error_of_bind h with h | ⟨record, hrecord, h⟩
      · exact decodes_operationRecord op e h
      · rw [← (operation_record hrecord).id] at hnone
        rw [Store.Memory.addOperation_of_none (Option.not_isSome_iff_eq_none.1 hnone)] at h
        cases h
  | account holder =>
    simp only [enter]
    split
    · exact decodes_ok _
    · rename_i hnone
      rw [Store.Memory.addAccount_of_none (Option.not_isSome_iff_eq_none.1 hnone)]
      exact decodes_ok _
  | receipt outcome =>
    apply (decodes_receiptRecords outcome).bind
    intro records
    obtain ⟨record, events⟩ := records
    show Decodes (if m.hasReceipt record.transaction record.operation then _ else _)
    split
    · exact decodes_ok _
    · rename_i hnone
      rw [Store.Memory.addReceipt_of_none _ (Bool.eq_false_iff.2 hnone)]
      exact decodes_ok _
  | token seen registration =>
    obtain ⟨m', h, -⟩ := enter_derived m (.token seen registration) rfl
    rw [h]
    exact decodes_ok _
  | event seen told =>
    obtain ⟨m', h, -⟩ := enter_derived m (.event seen told) rfl
    rw [h]
    exact decodes_ok _

/-- Nor does a list of entries. -/
theorem enterAll_decodes {es : List Entry} {m : Memory} (hm : m.WellFormed)
    (hfits : ∀ entry ∈ es, entry.Fits)
    (hrefusal : ∀ e, .refusal e ∈ es → e.isStoreFailure = false) :
    Decodes (enterAll es m).1 := by
  induction es generalizing m with
  | nil => exact decodes_ok _
  | cons entry rest ih =>
    simp only [enterAll]
    cases h : entry.enter m with
    | error e =>
      intro e' he'
      cases he'
      exact enter_decodes hm (fun e he => hrefusal e (by simp [he])) e h
    | ok m₁ =>
      exact ih (enter_wellFormed hm (hfits entry (by simp)) h) (fun f hf => hfits f (by simp [hf]))
        fun e he => hrefusal e (by simp [he])

/-! ## What belongs to a block -/

/-- An entry that names a block names this one. -/
def About (number : Nat) : Entry → Prop
  | .block b | .previousId b => b.number = number
  | _ => True

/-- What the entries of a block of some number have in common. -/
structure Belongs (receipts : String → Except Error (List Receipt)) (number : Nat)
    (entry : Entry) : Prop where
  fits : entry.Fits
  about : entry.About number
  /-- It is for the node to say why it does not give the receipts. -/
  refusal : ∀ e, entry = .refusal e →
    e.isStoreFailure = false ∨ ∃ transaction, receipts transaction = .error e

section

variable {receipts : String → Except Error (List Receipt)} {number : Nat}

theorem belongs_ofObservation {seen : Observation} {entry : Entry}
    (h : entry ∈ ofObservation seen) : entry.Belongs receipts number := by
  unfold ofObservation at h
  rcases List.mem_append.1 h with h | h
  · unfold ofAccountCreation at h
    split at h
    · cases h
    · split at h
      · cases List.mem_singleton.1 h
        exact ⟨trivial, trivial, nofun⟩
      · cases h
  rcases List.mem_append.1 h with h | h
  · unfold ofRegistration at h
    split at h
    · split at h
      · split at h
        · cases List.mem_singleton.1 h
          exact ⟨trivial, trivial, nofun⟩
        · cases h
      · cases h
    · cases h
  · unfold ofEvents at h
    split at h
    · cases h
    · obtain ⟨told, -, rfl⟩ := List.mem_map.1 h
      exact ⟨trivial, trivial, nofun⟩

theorem belongs_ofOperation {b : Block} {tx : Transaction} {received : List Receipt}
    {position : Nat} (hposition : (position : Int) ≤ int64Max) {raw : Json} {entry : Entry}
    (h : entry ∈ ofOperation b tx received position raw) : entry.Belongs receipts number := by
  unfold ofOperation at h
  split at h
  · rename_i e hdecode
    cases List.mem_singleton.1 h
    refine ⟨trivial, trivial, fun e' he' => .inl ?_⟩
    cases he'
    exact decodes_decode raw e hdecode
  · rename_i typeCode p hdecode
    have hplaced := placedAt_locate p b.number tx.id position
    rcases List.mem_append.1 h with h | h
    · simp only [List.mem_cons, List.not_mem_nil, or_false] at h
      rcases h with rfl | rfl | rfl
      · exact ⟨⟨_, _, hplaced⟩, trivial, nofun⟩
      · exact ⟨⟨hplaced, hposition⟩, trivial, nofun⟩
      · exact ⟨trivial, trivial, nofun⟩
    · exact belongs_ofObservation h

theorem belongs_ofOperations {b : Block} {tx : Transaction} {received : List Receipt}
    {position : Nat} (hposition : (position : Int) ≤ int32Max + 1) {raws : List Json}
    {entry : Entry} (h : entry ∈ ofOperations b tx received position raws) :
    entry.Belongs receipts number := by
  induction raws generalizing position with
  | nil => cases h
  | cons raw rest ih =>
    rcases List.mem_append.1 h with h | h
    · refine belongs_ofOperation ?_ h
      unfold int32Max at hposition
      unfold int64Max
      omega
    · split at h
      · refine ih ?_ h
        omega
      · cases h

theorem belongs_ofReceived {b : Block} {tx : Transaction} {received : List Receipt}
    {entry : Entry} (h : entry ∈ ofReceived b tx received) : entry.Belongs receipts number := by
  rcases List.mem_cons.1 h with rfl | h
  · exact ⟨trivial, trivial, nofun⟩
  rcases List.mem_append.1 h with h | h
  · exact belongs_ofOperations (by decide) h
  · obtain ⟨outcome, -, rfl⟩ := List.mem_map.1 h
    exact ⟨trivial, trivial, nofun⟩

theorem belongs_ofTransaction {b : Block} {tx : Transaction} {entry : Entry}
    (h : entry ∈ ofTransaction receipts b tx) : entry.Belongs receipts number := by
  unfold ofTransaction at h
  split at h
  · split at h
    · exact belongs_ofReceived h
    · rename_i e hreceipts
      cases List.mem_singleton.1 h
      refine ⟨trivial, trivial, fun e' he' => .inr ⟨tx.id, ?_⟩⟩
      cases he'
      exact hreceipts
  · exact belongs_ofReceived h

/-- The entries of a block belong to it. -/
theorem belongs_ofBlock {b : Block} {entry : Entry} (h : entry ∈ ofBlock receipts b) :
    entry.Belongs receipts b.number := by
  rcases List.mem_cons.1 h with rfl | h
  · exact ⟨trivial, rfl, nofun⟩
  rcases List.mem_cons.1 h with rfl | h
  · exact ⟨trivial, rfl, nofun⟩
  obtain ⟨tx, -, h⟩ := List.mem_flatMap.1 h
  exact belongs_ofTransaction h

end

/-- An entry about a block may follow one about the same block or an earlier one. -/
theorem follows_of_about {number number' : Nat} {entry later : Entry} (h : entry.About number)
    (hlater : later.About number') (hle : number ≤ number') : later.Follows entry := by
  cases later with
  | block b' =>
    cases entry with
    | previousId b =>
      have hnumber : b.number = number := h
      have hnumber' : b'.number = number' := hlater
      show b.number ≤ b'.number
      omega
    | _ => trivial
  | _ => trivial

/-! ## Ids of operations -/

/-- Where a separator comes first, it cuts a list in one way. -/
theorem eq_of_cut_first {α : Type} {a : α} {front front' back back' : List α} (h : a ∉ front)
    (h' : a ∉ front') (heq : front ++ a :: back = front' ++ a :: back') :
    front = front' ∧ back = back' := by
  induction front generalizing front' with
  | nil =>
    cases front' with
    | nil => exact ⟨rfl, (List.cons.inj heq).2⟩
    | cons b front' =>
      obtain ⟨rfl, -⟩ := List.cons.inj heq
      exact absurd List.mem_cons_self h'
  | cons b front ih =>
    cases front' with
    | nil =>
      obtain ⟨rfl, -⟩ := List.cons.inj heq
      exact absurd List.mem_cons_self h
    | cons b' front' =>
      obtain ⟨rfl, hrest⟩ := List.cons.inj heq
      obtain ⟨rfl, rfl⟩ := ih (fun hmem => h (List.mem_cons_of_mem b hmem))
        (fun hmem => h' (List.mem_cons_of_mem b hmem)) hrest
      exact ⟨rfl, rfl⟩

/-- So it does where it comes last. -/
theorem eq_of_cut_last {α : Type} {a : α} {front front' back back' : List α} (h : a ∉ back)
    (h' : a ∉ back') (heq : front ++ a :: back = front' ++ a :: back') :
    front = front' ∧ back = back' := by
  have hreverse := congrArg List.reverse heq
  simp only [List.reverse_append, List.reverse_cons, List.append_assoc,
    List.singleton_append] at hreverse
  obtain ⟨hback, hfront⟩ := eq_of_cut_first (by simpa using h) (by simpa using h') hreverse
  exact ⟨List.reverse_inj.1 hfront, List.reverse_inj.1 hback⟩

/-- An id tells the whole place: the block stands before the first separator, the position after the
last. -/
theorem place_of_placeId {number number' position position' : Nat}
    {transaction transaction' : String}
    (h : placeId number transaction position = placeId number' transaction' position') :
    number = number' ∧ transaction = transaction' ∧ position = position' := by
  have hdigits : ∀ n : Nat, '@' ∉ Nat.toDigits 10 n := by
    intro n hmem
    have hdigit := Nat.isDigit_of_mem_toDigits (by decide) (by decide) hmem
    exact absurd hdigit (by decide)
  have hvalue : ∀ n n' : Nat, Nat.toDigits 10 n = Nat.toDigits 10 n' → n = n' := by
    intro n n' hsame
    simpa using congrArg (Nat.ofDigitChars 10 · 0) hsame
  obtain ⟨hfront, hposition⟩ :=
    eq_of_cut_last (hdigits position) (hdigits position') (String.ofList_injective h)
  obtain ⟨hnumber, htransaction⟩ :=
    eq_of_cut_first (hdigits number) (hdigits number') hfront
  exact ⟨hvalue number number' hnumber, String.toList_injective htransaction,
    hvalue position position' hposition⟩

/-! ## The end of a transaction -/

/-- An operation whose position does not fit its column cannot be entered. -/
theorem enter_operation_position {m m' : Memory} (hm : m.WellFormed) {op : Placed}
    (h : (Entry.operation op).enter m = .ok m') : (op.index : Int) ≤ int32Max := by
  simp only [enter] at h
  split at h
  · rename_i hfound
    obtain ⟨record, hrecord⟩ := Option.isSome_iff_exists.1 hfound
    obtain ⟨number, transaction, position, hid, hposition⟩ :=
      hm.operations record (List.mem_of_find?_eq_some hrecord)
    have hsame : record.id = placeId op.blockNumber op.transaction op.index := by
      simpa using List.find?_some hrecord
    rw [(place_of_placeId (hsame.symm.trans hid)).2.2]
    exact hposition
  · obtain ⟨record, hrecord, -⟩ := of_bind h
    exact (operation_record hrecord).position

/-- Where a list of entries is made, each of them is. -/
theorem enter_of_mem {es : List Entry} {m m' : Memory} (hm : m.WellFormed)
    (hfits : ∀ entry ∈ es, entry.Fits) (h : enterAll es m = (.ok (), m')) {entry : Entry}
    (hentry : entry ∈ es) : ∃ m₁ m₂, m₁.WellFormed ∧ entry.enter m₁ = .ok m₂ := by
  induction es generalizing m with
  | nil => cases hentry
  | cons first rest ih =>
    obtain ⟨m₁, hfirst, h⟩ := of_enterAll_cons h
    rcases List.mem_cons.1 hentry with rfl | hentry
    · exact ⟨m, m₁, hm, hfirst⟩
    · exact ih (enter_wellFormed hm (hfits first (by simp)) hfirst)
        (fun f hf => hfits f (by simp [hf])) h hentry

/-- So the operations of a transaction end where their positions do. -/
theorem ofOperation_position {b : Block} {tx : Transaction} {received : List Receipt}
    {position : Nat} (hfits : (position : Int) ≤ int64Max) {raw : Json} {m m' : Memory}
    (hm : m.WellFormed) (h : enterAll (ofOperation b tx received position raw) m = (.ok (), m')) :
    (position : Int) ≤ int32Max := by
  have hbelongs : ∀ entry ∈ ofOperation b tx received position raw, entry.Fits := by
    intro entry he
    have hnowhere : entry.Belongs (fun _ => .ok []) 0 := belongs_ofOperation hfits he
    exact hnowhere.fits
  cases hdecode : Operation.decode raw with
  | error e => simp [ofOperation, hdecode, enterAll, enter] at h
  | ok decoded =>
    obtain ⟨typeCode, p⟩ := decoded
    have hmem : Entry.operation (placed b tx position typeCode p) ∈
        ofOperation b tx received position raw := by
      simp [ofOperation, hdecode]
    obtain ⟨m₁, m₂, hm₁, henter⟩ := enter_of_mem hm hbelongs h hmem
    exact enter_operation_position hm₁ henter

end ChainIndex.Entry
