import ChainIndex.Proofs.Observing
import ChainIndex.Proofs.Recording
import ChainIndex.Scan.Loop

/-!
# A block, as entries

Where receipts do not change, a block that is processed makes its entries, whoever asks the tokens
and however often the checkpoint is written. Where the node answers as it likes, there is no such
list, but the scanner stays sound, and a block that has been processed is stored.
-/

namespace ChainIndex.Scan

variable {ω : Type} {env : Surroundings ω}

/-! ## Procedures that leave a frame alone -/

/-- From a situation, a procedure keeps a frame, and ends well only with something more. -/
def Keeps {α : Type} (Γ : Frame env) (p : Procedure α) (post : α → Situation ω → Prop)
    (s : Situation ω) : Prop :=
  p.Ensures env.answer Γ.At (fun r s' => Γ.At s' ∧ ∀ a, r = .ok a → post a s') s

/-- What a frame says of a situation, and that a block is stored. -/
def Frame.storing (Γ : Frame env) (number : Nat) : Frame env where
  Holds s := Γ.Holds s ∧ (s.memory.block? number).isSome
  keep request s hkeeps hs :=
    ⟨Γ.keep request s hkeeps hs.1, (env.answer_grows request s).block _ hs.2⟩

section

variable {α β : Type} {Γ : Frame env} {receipts : String → Except Error (List Receipt)}
  {s : Situation ω}

/-- A procedure that makes entries keeps every frame. Which receipts there would be in calm
surroundings does not matter then. -/
theorem Enters.keeps {manner : Manner} {es : List Entry} {p : Procedure α}
    {post : α → Situation ω → Prop} (h : Enters Γ (fun _ => .ok []) manner es p post s) :
    Keeps Γ p post s := by
  apply h.ensures.mono (fun _ hs' => hs'.now)
  rintro r s' ⟨hreached, houtcome⟩
  refine ⟨hreached.now, fun a ha => ?_⟩
  cases ha
  exact houtcome.2

theorem Keeps.bind {p : Procedure β} {f : β → Procedure α} {between : β → Situation ω → Prop}
    {post : α → Situation ω → Prop} (hp : Keeps Γ p between s)
    (hrest : ∀ b s', Γ.At s' → between b s' → Keeps Γ (f b) post s') :
    Keeps Γ (p.bind f) post s := by
  refine Program.ensures_bind.2 (Program.Ensures.mono hp (fun _ => id) ?_)
  rintro (e | b) s' ⟨hs', hb⟩
  · exact ⟨hs', nofun⟩
  · exact hrest b s' hs' (hb b rfl)

/-! ## Operations -/

theorem indexOperation_enters (hs : Γ.At s) (interval : Nat) (caller : String) (b : Block)
    (tx : Transaction) (received : List Receipt) {position : Nat}
    (hposition : (position : Int) ≤ int64Max) (raw : Json) :
    Enters Γ receipts .strict (Entry.ofOperation b tx received position raw)
      (indexOperation ⟨interval, Observer.standard caller⟩ b tx received position raw)
      (fun _ _ => True) s := by
  unfold indexOperation Entry.ofOperation
  cases hdecode : Operation.decode raw with
  | error e => exact enters_fail hs rfl
  | ok decoded =>
    obtain ⟨typeCode, p⟩ := decoded
    have hfits : (Entry.row (Entry.placed b tx position typeCode p)).Fits :=
      ⟨Entry.placedAt_locate p b.number tx.id position, hposition⟩
    exact (recordOperation_enters hs hfits).bind nofun fun _ _ hs _ _ =>
      Observer.applyAll_enters hs caller
        (Entry.seenAt b tx received position typeCode p)

/-- The operations of a transaction are processed up to the last position that fits its column. -/
theorem indexOperations_enters (hs : Γ.At s) (interval : Nat) (caller : String) (b : Block)
    (tx : Transaction) (received : List Receipt) {position : Nat}
    (hposition : (position : Int) ≤ int32Max + 1) (raws : List Json) :
    Enters Γ receipts .strict (Entry.ofOperations b tx received position raws)
      (indexOperations ⟨interval, Observer.standard caller⟩ b tx received position raws)
      (fun _ _ => True) s := by
  induction raws generalizing position s with
  | nil => exact enters_done hs trivial
  | cons raw rest ih =>
    have hwide : (position : Int) ≤ int64Max := by
      unfold int32Max at hposition
      unfold int64Max
      omega
    have hfirst : Enters Γ receipts .strict (Entry.ofOperation b tx received position raw)
        (indexOperation ⟨interval, Observer.standard caller⟩ b tx received position raw)
        (fun _ _ => True) s := indexOperation_enters hs interval caller b tx received hwide raw
    unfold indexOperations Entry.ofOperations
    by_cases hlast : (position : Int) ≤ int32Max
    · rw [if_pos hlast]
      exact hfirst.bind nofun fun _ _ hs _ _ => ih hs (by omega)
    · rw [if_neg hlast, List.append_nil]
      refine hfirst.halt fun m' hmade => hlast ?_
      exact Entry.ofOperation_position hwide hs.sound.memory.history hmade

/-! ## Transactions -/

/-- A transaction whose receipts are known. -/
theorem indexReceived_enters (hs : Γ.At s) (interval : Nat) (caller : String) (b : Block)
    (tx : Transaction) (received : List Receipt) :
    Enters Γ receipts .strict (Entry.ofReceived b tx received)
      ((recordTransaction tx).bind fun _ =>
        (indexOperations ⟨interval, Observer.standard caller⟩ b tx received 0
          tx.operations).bind fun _ => (recordReceipts received).bind fun _ => .done ())
      (fun _ _ => True) s := by
  apply (recordTransaction_enters hs tx).bind nofun
  intro _ _ hs _ _
  refine (indexOperations_enters hs interval caller b tx received (by decide) _).bind nofun
    fun _ _ hs _ _ => ?_
  exact (recordReceipts_enters hs received).andThen fun _ _ hs _ => enters_done hs trivial

/-- The node is asked for receipts, and the frame is kept whatever it replies. -/
theorem at_receipts (hs : Γ.At s) (transaction : String) :
    Γ.At { s with world := (env.node (.receipts transaction) s.world).2 } :=
  ⟨Γ.keep (.node (.receipts transaction)) s rfl hs.holds, hs.sound.withWorld _⟩

theorem indexTransaction_enters (hfaithful : env.Faithful receipts) (hs : Γ.At s)
    (interval : Nat) (caller : String) (b : Block) (tx : Transaction) :
    Enters Γ receipts .strict (Entry.ofTransaction receipts b tx)
      (indexTransaction ⟨interval, Observer.standard caller⟩ b tx) (fun _ _ => True) s := by
  unfold indexTransaction neededReceipts Entry.ofTransaction
  by_cases hcalls : tx.callsContract
  case neg =>
    rw [if_neg hcalls, if_neg hcalls]
    exact indexReceived_enters hs interval caller b tx []
  rw [if_pos hcalls, if_pos hcalls]
  have hs' := at_receipts hs tx.id
  refine ⟨⟨hs'.reached _, ?_⟩⟩
  show Program.Ensures env.answer _ _
    (((Program.ofExcept (env.node (.receipts tx.id) s.world).1).bind _).bind _)
    { s with world := _ }
  cases hreply : (env.node (.receipts tx.id) s.world).1 with
  | ok received =>
    rw [hfaithful tx.id s.world received hreply]
    exact (indexReceived_enters hs' interval caller b tx _).ensures
  | error e =>
    refine ⟨hs'.reached _, fun hcalm => ?_⟩
    rw [← hcalm.receipts tx.id s.world, hreply]
    rfl

theorem indexTransaction_keeps (hs : Γ.At s) (interval : Nat) (caller : String) (b : Block)
    (tx : Transaction) :
    Keeps Γ (indexTransaction ⟨interval, Observer.standard caller⟩ b tx) (fun _ _ => True) s := by
  -- once they are given, receipts are taken as they are
  have hreceived : ∀ s', Γ.At s' → ∀ received, Keeps Γ
      ((recordTransaction tx).bind fun _ =>
        (indexOperations ⟨interval, Observer.standard caller⟩ b tx received 0
          tx.operations).bind fun _ => (recordReceipts received).bind fun _ => .done ())
      (fun _ _ => True) s' := by
    intro s' hs' received
    exact (indexReceived_enters hs' interval caller b tx received).keeps
  unfold indexTransaction neededReceipts
  by_cases hcalls : tx.callsContract
  case neg =>
    rw [if_neg hcalls]
    exact hreceived s hs []
  rw [if_pos hcalls]
  have hs' := at_receipts hs tx.id
  refine ⟨hs', ?_⟩
  show Program.Ensures env.answer _ _
    (((Program.ofExcept (env.node (.receipts tx.id) s.world).1).bind _).bind _)
    { s with world := _ }
  cases (env.node (.receipts tx.id) s.world).1 with
  | ok received => exact hreceived _ hs' _
  | error e => exact ⟨hs', nofun⟩

/-! ## Blocks -/

theorem indexTransactions_enters (hfaithful : env.Faithful receipts) (hs : Γ.At s)
    (interval : Nat) (caller : String) (b : Block) (txs : List Transaction) :
    Enters Γ receipts .strict (txs.flatMap (Entry.ofTransaction receipts b))
      (indexTransactions ⟨interval, Observer.standard caller⟩ b txs) (fun _ _ => True) s := by
  induction txs generalizing s with
  | nil => exact enters_done hs trivial
  | cons tx rest ih =>
    rw [List.flatMap_cons]
    exact (indexTransaction_enters hfaithful hs interval caller b tx).bind nofun
      fun _ _ hs _ _ => ih hs

theorem indexTransactions_keeps (hs : Γ.At s) (interval : Nat) (caller : String) (b : Block)
    (txs : List Transaction) :
    Keeps Γ (indexTransactions ⟨interval, Observer.standard caller⟩ b txs) (fun _ _ => True) s := by
  induction txs generalizing s with
  | nil => exact ⟨hs, fun _ _ => trivial⟩
  | cons tx rest ih =>
    exact (indexTransaction_keeps hs interval caller b tx).bind fun _ _ hs _ => ih hs

/-- Where receipts do not change, processing a block makes its entries. -/
theorem indexBlock_enters (hfaithful : env.Faithful receipts) (hs : Γ.At s) (interval : Nat)
    (caller : String) (b : Block) :
    Enters Γ receipts .strict (Entry.ofBlock receipts b)
      (indexBlock ⟨interval, Observer.standard caller⟩ b) (fun _ _ => True) s := by
  apply (recordBlock_enters hs b).bind nofun
  intro _ _ hs _ _
  apply (recordPreviousId_enters hs b).bind nofun
  intro _ _ hs _ _
  exact indexTransactions_enters hfaithful hs interval caller b b.transactions

/-- A block that has been processed is stored, and its number fits the column. -/
theorem indexBlock_keeps (hs : Γ.At s) (interval : Nat) (caller : String) (b : Block) :
    Keeps Γ (indexBlock ⟨interval, Observer.standard caller⟩ b)
      (fun _ s' => (b.number : Int) ≤ int64Max ∧ (s'.memory.block? b.number).isSome) s := by
  have hfirst := (recordBlock_enters hs b).keeps
  refine hfirst.bind fun _ s' hs' ⟨hmax, hstored⟩ => ?_
  -- from here on the block is stored
  have hrest : Keeps (Γ.storing b.number)
      ((recordPreviousId b).bind fun _ =>
        indexTransactions ⟨interval, Observer.standard caller⟩ b b.transactions)
      (fun _ _ => True) s' := by
    have hs' : (Γ.storing b.number).At s' := ⟨⟨hs'.holds, hstored⟩, hs'.sound⟩
    exact (recordPreviousId_enters hs' b).keeps.bind
      fun _ _ hs _ => indexTransactions_keeps hs interval caller b b.transactions
  apply Program.Ensures.mono hrest (fun _ h => ⟨h.holds.1, h.sound⟩)
  rintro r s'' ⟨h, -⟩
  exact ⟨⟨h.holds.1, h.sound⟩, fun _ _ => ⟨hmax, h.holds.2⟩⟩

end

end ChainIndex.Scan
