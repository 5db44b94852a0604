import ChainIndex.Proofs.EntryWrites

/-!
# Entries that are there

`Made` says of a store that it has an entry, as far as the entry belongs to the part that the chain
decides. An entry is there once it has been made, making it again changes nothing, and it stays
there while others are made that `Follows` allows after it. So a list of entries that has been made
in order can be made again, and comes to the same end.
-/

namespace ChainIndex.Entry

open Scan (WideTable.name WideTable.position placeId)
open Store (Memory)

/-! ## Entries that have been made -/

/-- A store has an entry. Nothing is asked of the entries of tokens. -/
def Made : Entry → Memory → Prop
  | .refusal _, _ => False
  | .block b, m => ∃ record, b.record = .ok record ∧ (m.block? record.number).isSome
  | .previousId b, m =>
    b.number ≤ 1 ∨ b.previous = "" ∨
      ∃ number, Quantity.blockNumber.int64 (b.number - 1 : Nat) = .ok number ∧
        ∀ previous, m.block? number = some previous → previous.id ≠ ""
  | .transaction tx, m => (m.transaction? tx.id).isSome
  | .table typeName _, m => (m.table? (WideTable.name typeName)).isSome
  | .row op, m =>
    ∃ known, m.table? (WideTable.name op.typeName) = some known ∧
      known.rows.any (Store.Memory.isAt op.transaction (WideTable.position op.index))
  | .operation op, m => (m.operation? (placeId op.blockNumber op.transaction op.index)).isSome
  | .account holder, m => (m.account? holder.owner).isSome
  | .receipt outcome, m =>
    ∃ record events, outcome.records = .ok (record, events) ∧
      m.hasReceipt record.transaction record.operation
  | .token _ _, _ | .event _ _, _ => True

/-- An entry that is there is not made a second time. -/
theorem enter_of_made {m : Memory} {entry : Entry} (hentry : entry.isIndexed)
    (h : entry.Made m) : entry.enter m = .ok m := by
  cases entry with
  | refusal e => exact h.elim
  | block b =>
    obtain ⟨record, hrecord, hfound⟩ := h
    simp only [enter, hrecord]
    exact if_pos hfound
  | previousId b =>
    simp only [enter]
    by_cases hfirst : b.number ≤ 1 ∨ b.previous = ""
    · rw [if_pos hfirst]
    · rw [if_neg hfirst]
      obtain hnumber | hprevious | ⟨number, hnumber, hknown⟩ := h
      · exact absurd (.inl hnumber) hfirst
      · exact absurd (.inr hprevious) hfirst
      · rw [hnumber, ok_bind]
        cases hprevious : m.block? number with
        | none => rfl
        | some previous => exact if_neg (hknown previous hprevious)
  | transaction tx => exact if_pos h
  | table typeName sample => exact congrArg Except.ok (if_pos h)
  | row op =>
    obtain ⟨known, hknown, hrow⟩ := h
    have htable : tableFor m op = known := by
      unfold tableFor
      rw [hknown, Option.getD_some]
    simp only [enter, htable, hrow, if_true]
  | operation op => exact if_pos h
  | account holder => exact if_pos h
  | receipt outcome =>
    obtain ⟨record, events, hrecords, hfound⟩ := h
    simp only [enter, hrecords]
    exact if_pos hfound
  | token seen registration => cases hentry
  | event seen told => cases hentry

/-- A record that has been put at the end of a list is found in it. -/
theorem find?_concat_self {α : Type} {p : α → Bool} (l : List α) {a : α} (h : p a) :
    ((l ++ [a]).find? p).isSome :=
  List.find?_isSome.2 ⟨a, by simp, h⟩

/-- An entry that has been made is there. -/
theorem made_of_enter {m m' : Memory} (hm : m.WellFormed) {entry : Entry} (hfits : entry.Fits)
    (h : entry.enter m = .ok m') : entry.Made m' := by
  cases entry with
  | refusal e => cases h
  | block b =>
    obtain ⟨record, hrecord, h⟩ := of_bind h
    refine ⟨record, hrecord, ?_⟩
    split at h
    · cases h
      assumption
    · unfold Memory.addBlock at h
      split at h <;> cases h
      exact List.find?_isSome.2 ⟨record, Store.Memory.mem_insertByNumber.2 (.inl rfl), by simp⟩
  | previousId b =>
    simp only [enter] at h
    by_cases hnumber : b.number ≤ 1
    · exact .inl hnumber
    by_cases hprevious : b.previous = ""
    · exact .inr (.inl hprevious)
    rw [if_neg (by simp [hnumber, hprevious])] at h
    obtain ⟨number, hn, h⟩ := of_bind h
    refine .inr (.inr ⟨number, hn, fun previous hfound => ?_⟩)
    cases hbefore : m.block? number with
    | none =>
      simp only [hbefore] at h
      cases h
      simp [hbefore] at hfound
    | some found =>
      simp only [hbefore] at h
      split at h <;> cases h
      · -- the block that is found now is the one that was found, with the id that it got
        have hself := Store.Memory.find?_updateFirst_self (p := (·.number == number))
          (f := ({ · with id := b.previous })) m.blocks (fun _ _ => id)
        have hnow : previous = { found with id := b.previous } := by
          have hboth := hfound.symm.trans (hself.trans (congrArg (Option.map _) hbefore))
          exact Option.some.inj hboth
        rw [hnow]
        exact hprevious
      · cases hbefore.symm.trans hfound
        assumption
  | transaction tx =>
    simp only [enter] at h
    split at h
    · cases h
      assumption
    · obtain ⟨record, hrecord, h⟩ := of_bind h
      unfold Memory.addTransaction at h
      split at h <;> cases h
      exact find?_concat_self m.transactions (by simp [(transaction_record hrecord).1])
  | table typeName sample =>
    cases h
    exact Store.Memory.table?_addTable m _ _ _
  | row op =>
    simp only [enter] at h
    split at h
    · rename_i hrow
      cases h
      cases hknown : m.table? (WideTable.name op.typeName) with
      | none => simp [tableFor, hknown] at hrow
      | some known => exact ⟨known, hknown, by simpa [tableFor, hknown] using hrow⟩
    · rw [addRow_row (by rw [Memory.addTable_failing, hm.failing]) (addTable_tableFor m op)] at h
      cases h
      refine ⟨_, Store.Memory.lookup_putEntry_self _ _ _, ?_⟩
      have hat := isAt_row (tableFor_hasPlace hm hfits) hfits.1 hfits.2
      simp [hat]
  | operation op =>
    simp only [enter] at h
    split at h
    · cases h
      assumption
    · obtain ⟨record, hrecord, h⟩ := of_bind h
      unfold Memory.addOperation at h
      split at h <;> cases h
      exact find?_concat_self m.operations (by simp [(operation_record hrecord).id])
  | account holder =>
    simp only [enter] at h
    split at h
    · cases h
      assumption
    · unfold Memory.addAccount at h
      split at h <;> cases h
      exact find?_concat_self m.accounts (by simp)
  | receipt outcome =>
    obtain ⟨⟨record, events⟩, hrecords, h⟩ := of_bind h
    change (if m.hasReceipt _ _ then _ else _) = _ at h
    refine ⟨record, events, hrecords, ?_⟩
    split at h
    · cases h
      assumption
    · unfold Memory.addReceipt at h
      split at h <;> cases h
      simp [Memory.hasReceipt]
  | token seen registration => trivial
  | event seen told => trivial

/-- An entry may come after another one. The id of a block is not looked for before the block can
be there. -/
def Follows : Entry → Entry → Prop
  | .block b', .previousId b => b.number ≤ b'.number
  | _, _ => True

/-- A block with an id keeps one. -/
theorem Writes.named {later : Entry} {request : Store.Request} (h : later.Writes request)
    {b : Block} (hfollows : later.Follows (.previousId b)) (hfirst : ¬b.number ≤ 1)
    {number : Int} (hnumber : Quantity.blockNumber.int64 (b.number - 1 : Nat) = .ok number)
    {m : Memory} (hm : ∀ previous, m.block? number = some previous → previous.id ≠ "") :
    ∀ previous, (Memory.answer request m).2.block? number = some previous → previous.id ≠ "" := by
  intro previous hfound
  obtain ⟨hnumber, -⟩ := int64_ok hnumber
  by_cases hrequest : request.target? = some .blocks
  case neg =>
    have hblocks : (Memory.answer request m).2.blocks = m.blocks := Memory.answer_same hrequest m
    apply hm previous
    rwa [Memory.block?, hblocks] at hfound
  cases request with
  | addBlock record =>
    cases later with
    | block b' =>
      have hle : b.number ≤ b'.number := hfollows
      have hne : number ≠ record.number := by
        rw [(block_record h).1, hnumber]
        omega
      simp only [Memory.answer] at hfound
      cases hadd : m.addBlock record with
      | error e => exact hm previous (by rwa [hadd] at hfound)
      | ok m₁ =>
        rw [hadd] at hfound
        have hsame := (Store.Memory.block?_of_addBlock hadd).2 number
        rw [if_neg hne] at hsame
        exact hm previous (hsame.symm.trans hfound)
    | _ => cases h
  | setBlockId n given =>
    cases later with
    | previousId b' =>
      obtain ⟨-, hid⟩ := h
      have hset := Store.Memory.block?_setBlockId m n number given
      split at hset
      · obtain ⟨found, -, hprevious⟩ := Option.map_eq_some_iff.1 (hset.symm.trans hfound)
        rw [← hprevious]
        exact hid
      · exact hm previous (hset.symm.trans hfound)
    | _ => cases h
  | _ => cases hrequest

/-- What is there stays there while entries are made that may come after it. -/
theorem Made.keep {m m' : Memory} {entry later : Entry} (hmade : entry.Made m)
    (hfollows : later.Follows entry) (h : later.enter m = .ok m') : entry.Made m' := by
  have hgrows := enter_grows h
  cases entry with
  | refusal e => exact hmade
  | block b =>
    obtain ⟨record, hrecord, hfound⟩ := hmade
    exact ⟨record, hrecord, hgrows.block _ hfound⟩
  | previousId b =>
    by_cases hfirst : b.number ≤ 1
    · exact .inl hfirst
    obtain hnumber | hprevious | ⟨number, hnumber, hknown⟩ := hmade
    · exact absurd hnumber hfirst
    · exact .inr (.inl hprevious)
    · refine .inr (.inr ⟨number, hnumber, ?_⟩)
      exact enter_keeps (P := fun m => ∀ previous, m.block? number = some previous →
        previous.id ≠ "") (fun _ _ hwrites => hwrites.named hfollows hfirst hnumber) h hknown
  | transaction tx => exact hgrows.transaction _ hmade
  | table typeName sample =>
    obtain ⟨known, hknown⟩ := Option.isSome_iff_exists.1 hmade
    obtain ⟨known', hknown', -⟩ := hgrows.table _ known hknown
    exact Option.isSome_iff_exists.2 ⟨known', hknown'⟩
  | row op =>
    obtain ⟨known, hknown, hrow⟩ := hmade
    obtain ⟨known', hknown', -, hrows⟩ := hgrows.table _ known hknown
    obtain ⟨row, hmem, hat⟩ := List.any_eq_true.1 hrow
    exact ⟨known', hknown', List.any_eq_true.2 ⟨row, hrows row hmem, hat⟩⟩
  | operation op => exact hgrows.operation _ hmade
  | account holder => exact hgrows.account _ hmade
  | receipt outcome =>
    obtain ⟨record, events, hrecords, hfound⟩ := hmade
    exact ⟨record, events, hrecords, hgrows.receipt _ _ hfound⟩
  | token seen registration => trivial
  | event seen told => trivial

/-! ## Lists that have been made -/

/-- Each entry of a list may come after those before it. -/
def InOrder (es : List Entry) : Prop := es.Pairwise fun entry later => later.Follows entry

/-- What is there stays there while a list of entries is made, even if one of them fails. -/
theorem Made.keepAll {m : Memory} {entry : Entry} {es : List Entry} (hmade : entry.Made m)
    (hfollows : ∀ later ∈ es, later.Follows entry) : entry.Made (enterAll es m).2 := by
  induction es generalizing m with
  | nil => exact hmade
  | cons later rest ih =>
    simp only [enterAll]
    cases h : later.enter m with
    | error e => exact hmade
    | ok m₁ =>
      exact ih (hmade.keep (hfollows later (by simp)) h) fun f hf => hfollows f (by simp [hf])

/-- Entries that are there are not made a second time. -/
theorem enterAll_of_made {m : Memory} {es : List Entry} (hes : ∀ entry ∈ es, entry.isIndexed)
    (h : ∀ entry ∈ es, entry.Made m) : enterAll es m = (.ok (), m) := by
  induction es with
  | nil => rfl
  | cons entry rest ih =>
    have hfirst := enter_of_made (hes entry (by simp)) (h entry (by simp))
    simp only [enterAll, hfirst]
    exact ih (fun e he => hes e (by simp [he])) fun e he => h e (by simp [he])

/-- A list of entries that has been made is there. -/
theorem made_of_enterAll {m m' : Memory} (hm : m.WellFormed) {es : List Entry}
    (hfits : ∀ entry ∈ es, entry.Fits) (horder : InOrder es)
    (h : enterAll es m = (.ok (), m')) : ∀ entry ∈ es, entry.Made m' := by
  induction es generalizing m with
  | nil => simp
  | cons entry rest ih =>
    obtain ⟨hfollows, horder⟩ := List.pairwise_cons.1 horder
    obtain ⟨m₁, hentry, h⟩ := of_enterAll_cons h
    have hm₁ := enter_wellFormed hm (hfits entry (by simp)) hentry
    have hfirst : entry.Made (enterAll rest m₁).2 :=
      (made_of_enter hm (hfits entry (by simp)) hentry).keepAll hfollows
    rw [h] at hfirst
    intro e he
    rcases List.mem_cons.1 he with rfl | he
    · exact hfirst
    · exact ih hm₁ (fun f hf => hfits f (by simp [hf])) horder h e he

/-- Entries that have been made in order, as far as they could be, come to the same end when they
are made again. -/
theorem enterAll_again {m : Memory} (hm : m.WellFormed) {es : List Entry}
    (hes : ∀ entry ∈ es, entry.isIndexed) (hfits : ∀ entry ∈ es, entry.Fits)
    (horder : InOrder es) : enterAll es (enterAll es m).2 = enterAll es m := by
  induction es generalizing m with
  | nil => rfl
  | cons entry rest ih =>
    obtain ⟨hfollows, horder⟩ := List.pairwise_cons.1 horder
    cases hentry : entry.enter m with
    | error e => simp [enterAll, hentry]
    | ok m₁ =>
      have hfirst : enterAll (entry :: rest) m = enterAll rest m₁ := by
        simp only [enterAll, hentry]
      have hm₁ := enter_wellFormed hm (hfits entry (by simp)) hentry
      have hmade : entry.Made (enterAll rest m₁).2 :=
        (made_of_enter hm (hfits entry (by simp)) hentry).keepAll hfollows
      have hagain := ih hm₁ (fun f hf => hes f (by simp [hf])) (fun f hf => hfits f (by simp [hf]))
        horder
      rw [hfirst, enterAll, enter_of_made (hes entry (by simp)) hmade]
      exact hagain

/-- Making a list ends well where making both its parts does. -/
theorem enterAll_append_ok {es es' : List Entry} {m m' : Memory} :
    enterAll (es ++ es') m = (.ok (), m') ↔
      ∃ m₁, enterAll es m = (.ok (), m₁) ∧ enterAll es' m₁ = (.ok (), m') := by
  cases h : enterAll es m with
  | mk r m₁ =>
    cases r with
    | error e => simp [enterAll_append_of_error h]
    | ok _ => simp [enterAll_append h]

end ChainIndex.Entry
