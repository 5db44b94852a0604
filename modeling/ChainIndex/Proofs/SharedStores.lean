import ChainIndex.Proofs.GuardedWrites
import ChainIndex.Proofs.StoreFailures

/-!
# Stores that scanners share

Others may write to the store of a scanner whatever they like while it is not running, tables of
operations included, and scanners may be started on it again and again. None of their requests is
ever refused by it.
-/

namespace ChainIndex.Scan

open Entry (Decodes)
open Program (Call)
open Store (Memory)

variable {ω : Type} {env : Surroundings ω}

/-! ## Blocks -/

section

variable {s : Situation ω} (henv : env.Unhindered) (interval : Nat) (caller : String) (b : Block)
include henv

theorem indexOperation_served (hs : Reliable s) (tx : Transaction) (received : List Receipt)
    (position : Nat) (raw : Json) :
    Served env (indexOperation ⟨interval, Observer.standard caller⟩ b tx received position raw)
      (fun _ _ => True) s := by
  refine served_decode hs (Entry.decodes_decode raw) fun (typeCode, payload) _ => ?_
  exact (recordOperation_served henv hs _).bind fun _ _ _ hs _ => standard_served henv hs caller _

theorem indexOperations_served (hs : Reliable s) (tx : Transaction) (received : List Receipt)
    (position : Nat) (raws : List Json) :
    Served env (indexOperations ⟨interval, Observer.standard caller⟩ b tx received position raws)
      (fun _ _ => True) s := by
  induction raws generalizing s position with
  | nil => exact served_done hs trivial
  | cons raw rest ih =>
    exact (indexOperation_served henv interval caller b hs tx received position raw).bind
      fun _ _ _ hs _ => ih hs (position + 1)

theorem indexTransaction_served (hs : Reliable s) (tx : Transaction) :
    Served env (indexTransaction ⟨interval, Observer.standard caller⟩ b tx) (fun _ _ => True) s := by
  have hneeded : Served env (neededReceipts tx) (fun _ _ => True) s := by
    unfold neededReceipts
    split
    · exact served_node henv hs fun _ _ hs => served_done hs trivial
    · exact served_done hs trivial
  refine hneeded.bind fun received _ _ hs _ => ?_
  refine (recordTransaction_served henv hs tx).bind fun _ _ _ hs _ => ?_
  refine (indexOperations_served henv interval caller b hs tx received 0 tx.operations).bind
    fun _ _ _ hs _ => ?_
  exact (recordReceipts_served henv hs received).bind fun _ _ _ hs _ => served_done hs trivial

theorem indexTransactions_served (hs : Reliable s) (txs : List Transaction) :
    Served env (indexTransactions ⟨interval, Observer.standard caller⟩ b txs)
      (fun _ _ => True) s := by
  induction txs generalizing s with
  | nil => exact served_done hs trivial
  | cons tx rest ih =>
    exact (indexTransaction_served henv interval caller b hs tx).bind fun _ _ _ hs _ => ih hs

theorem indexBlock_served (hs : Reliable s) :
    Served env (indexBlock ⟨interval, Observer.standard caller⟩ b) (fun _ _ => True) s := by
  refine (recordBlock_served henv hs b).bind fun _ _ _ hs _ => ?_
  refine (recordPreviousId_served henv hs b).bind fun _ _ _ hs _ => ?_
  exact indexTransactions_served henv interval caller b hs b.transactions

end

/-! ## Runs -/

theorem Checkpoint.decodes_ofText (value : String) : Decodes (Checkpoint.ofText value) := by
  intro e h
  unfold Checkpoint.ofText at h
  split at h <;> cases h
  rfl

section

variable {s : Situation ω} (henv : env.Unhindered)
include henv

/-- A visit that fails has not failed with the store. -/
theorem visit_served (hs : Reliable s) (interval : Nat) (caller : String) (cursor : Nat) :
    Served env (visit ⟨interval, Observer.standard caller⟩ cursor)
      (fun v _ => ∀ e, v = .failed e → e.isStoreFailure = false) s := by
  have hfailed : ∀ {s : Situation ω} {e : Error}, Reliable s → e.isStoreFailure = false →
      Served env (.done (Visit.failed e))
        (fun v _ => ∀ e, v = .failed e → e.isStoreFailure = false) s := by
    intro s e hs he
    exact served_done hs fun e' he' => Visit.failed.inj he' ▸ he
  unfold visit
  refine ⟨hs, ?_⟩
  show Served env (if env.cancelled s.world then _ else _) _ s
  split
  · exact served_done hs nofun
  have hask : Served env (node (.block cursor)) (fun _ _ => True) s := by
    rw [← Program.bind_done (node (.block cursor))]
    exact served_node henv hs fun _ _ hs => served_done hs trivial
  refine hask.attempt fun reply s hs hreply => ?_
  cases reply with
  | error e => exact hfailed hs (hreply e rfl)
  | ok found =>
    cases found with
    | none => exact served_done hs nofun
    | some b =>
      refine (indexBlock_served henv interval caller (asked b cursor) hs).attempt
        fun r s hs hr => ?_
      cases r with
      | error e => exact hfailed hs (hr e rfl)
      | ok _ => exact served_done hs nofun

theorem moveTo_served (hs : Reliable s) (number : Nat) :
    Served env (Checkpoint.moveTo number) (fun _ _ => True) s := by
  refine served_store henv hs rfl fun world hs => ?_
  split
  · exact served_done hs trivial
  · exact served_write henv hs rfl

theorem settle_served (hs : Reliable s) (setup : Setup) (cursor : Nat) {v : Visit}
    (hv : ∀ e, v = .failed e → e.isStoreFailure = false) :
    Served env (settle setup cursor v) (fun _ _ => True) s := by
  have hclose : ∀ {s : Situation ω} (number : Nat) (position : Position), Reliable s →
      Served env ((Checkpoint.moveTo number).bind fun _ => .done position) (fun _ _ => True) s :=
    fun number position hs => (moveTo_served henv hs number).bind fun _ _ _ hs _ =>
      served_done hs trivial
  cases v with
  | cancelled | absent => exact hclose (cursor - 1) _ hs
  | failed e =>
    show Served env (breakOff cursor e) _ s
    unfold breakOff
    split
    · refine ⟨hs, ?_⟩
      show Served env (if env.cancelled s.world then _ else _) _ s
      split
      · exact hclose (cursor - 1) _ hs
      · exact served_fail hs (hv e rfl)
    · exact served_fail hs (hv e rfl)
  | processed =>
    show Served env (if 0 < setup.interval ∧ cursor % setup.interval = 0 then _ else _) _ s
    split
    · exact hclose cursor _ hs
    · exact served_done hs trivial

theorem scan_served (hs : Reliable s) (interval : Nat) (caller : String) (rounds cursor : Nat) :
    Served env (scan ⟨interval, Observer.standard caller⟩ rounds cursor) (fun _ _ => True) s := by
  induction rounds generalizing s cursor with
  | zero => exact served_done hs trivial
  | succ rounds ih =>
    have hround : Served env (advance ⟨interval, Observer.standard caller⟩ cursor)
        (fun _ _ => True) s := by
      rw [advance_eq]
      exact (visit_served henv hs interval caller cursor).bind fun v _ _ hs hv =>
        settle_served henv hs ⟨interval, Observer.standard caller⟩ cursor hv
    refine hround.bind fun position _ _ hs _ => ?_
    cases position with
    | stopped last => exact served_done hs trivial
    | scanning cursor => exact ih hs cursor

theorem start_served (hs : Reliable s) (start : Option Nat) :
    Served env (Checkpoint.start start) (fun _ _ => True) s := by
  cases start with
  | some number => exact served_done hs trivial
  | none =>
    have hlast : Served env Checkpoint.last (fun _ _ => True) s := by
      refine served_store henv hs rfl fun world hs => ?_
      simp only [Memory.answer]
      cases s.memory.configs.lookup Checkpoint.key with
      | none => exact served_done hs trivial
      | some value =>
        cases hvalue : Checkpoint.ofText value with
        | ok n =>
          simp only [hvalue, Program.ofExcept]
          exact served_done hs trivial
        | error e =>
          simp only [hvalue, Program.ofExcept]
          exact served_fail hs (Checkpoint.decodes_ofText value e hvalue)
    exact hlast.bind fun _ _ _ hs _ => served_done hs trivial

theorem launch_served (hs : Reliable s) (interval : Nat) (caller : String) (start : Option Nat)
    (rounds : Nat) :
    Served env (launch ⟨interval, Observer.standard caller⟩ start rounds) (fun _ _ => True) s :=
  (start_served henv hs start).bind fun cursor _ _ hs _ =>
    scan_served henv hs interval caller rounds cursor

end

/-! ## Stores that are shared -/

/-- What can become of a store that was empty at first and that scanners share with others, who may
ask it whatever they like between two runs. A run may start with a new scanner or with one that has
run before, and may be cut short at any of its moments. -/
inductive Shared (env : Surroundings ω) : Situation ω → Prop where
  | empty (world : ω) : Shared env ⟨world, Memory.empty, Cache.empty⟩
  | asked {s : Situation ω} (before : Shared env s) (request : Store.Request) (world : ω) :
      Shared env ⟨world, (Memory.answer request s.memory).2, s.cache⟩
  | restarted {s : Situation ω} (before : Shared env s) :
      Shared env { s with cache := Cache.empty }
  | run {s s' : Situation ω} (before : Shared env s) (interval rounds : Nat) (caller : String)
      (start : Option Nat)
      (moment : s' ∈ (launch ⟨interval, Observer.standard caller⟩ start rounds).moments
        env.answer s) : Shared env s'

theorem Shared.reliable (henv : env.Unhindered) {s : Situation ω} (h : Shared env s) :
    Reliable s := by
  induction h with
  | empty world => exact ⟨rfl, fun name known hknown => by simp [Cache.empty] at hknown⟩
  | asked _ request world ih => exact ih.asked request world
  | restarted _ ih => exact ih.restarted
  | run _ interval rounds caller start moment ih =>
    exact (Program.ensures_iff.1 (launch_served henv ih interval caller start rounds)).1 _ moment

/-- However the store came to be what it is, and whatever the node replies: no request of a run to
the store is refused, and the run does not end with a failure of the store. -/
theorem shared_store_refuses_nothing (henv : env.Unhindered) {s : Situation ω} (h : Shared env s)
    (interval rounds : Nat) (caller : String) (start : Option Nat) :
    let run := launch ⟨interval, Observer.standard caller⟩ start rounds
    (∀ request reply, (⟨.store request, reply⟩ : Call interface) ∈ run.calls env.answer s →
        ∃ v, reply = .ok v) ∧
      ∀ e s', run.run env.side s = (.error e, s') → e.isStoreFailure = false := by
  intro run
  have hserved := launch_served henv (h.reliable henv) interval caller start rounds
  have hend : ∀ e s', Program.run env.answer run s = (.error e, s') →
      e.isStoreFailure = false := by
    intro e s' hrun
    obtain ⟨-, -, hfailure⟩ := Program.ensures_iff.1 hserved
    rwa [hrun] at hfailure
  refine ⟨fun request reply hcall => ?_, hend⟩
  obtain ⟨before, later, hcalls⟩ := List.append_of_mem hcall
  have hreply : reply = (env.answer (.store request) (Program.after env.answer before s)).1 :=
    Program.reply_of_calls hcalls
  cases reply with
  | ok v => exact ⟨v, rfl⟩
  | error e =>
    -- a store that refuses something ends the run
    have he : e.isStoreFailure := by
      cases hfault : env.fault request (Program.after env.answer before s).world with
      | mk fault world =>
        have hnone := henv.store request (Program.after env.answer before s).world
        rw [hfault] at hnone
        cases hnone
        rw [env.answer_of_no_fault hfault] at hreply
        exact isStoreFailure_of_answer hreply.symm
    have hfails : Request.storeFailure? (.store request) (.error e) = some e := if_pos he
    obtain ⟨-, hrun⟩ := (launch_heeds interval caller start rounds).ends hcalls hfails
    rw [hend e _ hrun] at he
    cases he

/-- A node with one block, in which everything is there twice: the transaction, its call of a
contract, the receipt, and the asset of the transfer. -/
def Answers.doubled : Answers
  | .block number =>
    let call : Json := .arr [.int 79, .obj []]
    let transfer : Json := .arr [.int 0, .obj [
      ("amount", .obj [("amount", .int 5), ("asset_id", .str "1.3.0")]),
      ("from_addr", .str "sender"), ("to_addr", .str "receiver")]]
    let tx : Transaction := { operations := [call, call, transfer] }
    .ok (if number = 1 then some { number, transactions := [tx, tx] } else none)
  | .receipts _ => .ok [{ blockNumber := 1 }, { blockNumber := 1 }]
  | .invoke _ _ _ _ => .error (.node "closed")
  | .assets _ _ => .ok [⟨"1.3.0", "COIN", 5⟩, ⟨"1.3.0", "COIN", 5⟩]
  | .balances _ => .ok []

/-- A store in which somebody else has made the table of transfers, with one column of two types. -/
def foreignTable : Situation Unit :=
  ⟨(), (Memory.answer (.addTable "op_transfer" [⟨"memo", .bigInt⟩, ⟨"memo", .text⟩]
    ⟨"memo_idx", []⟩) Memory.empty).2, Cache.empty⟩

/-- A run there on the block. -/
abbrev doubledRun : Procedure Position := launch ⟨1, Observer.standard "caller"⟩ none 2

theorem doubled_is_not_refused :
    let env := Surroundings.steady Answers.doubled
    let left := (doubledRun.run env.side foreignTable).2.memory
    left.receipts.length = 1 ∧ left.transactions.length = 1 ∧ left.assets.length = 1 ∧
      (∀ request reply,
        (⟨.store request, reply⟩ : Call interface) ∈ doubledRun.calls env.answer foreignTable →
          ∃ v, reply = .ok v) ∧
      ∀ e s', doubledRun.run env.side foreignTable = (.error e, s') →
        e.isStoreFailure = false := by
  intro env left
  have henv : env.Unhindered := by
    refine ⟨fun _ _ => rfl, fun request _ e hreply => ?_⟩
    cases request <;> cases hreply
    rfl
  have hshared : Shared env foreignTable := .asked (.empty ()) _ ()
  obtain ⟨hanswered, hend⟩ := shared_store_refuses_nothing henv hshared 1 2 "caller" none
  exact ⟨by decide +kernel, by decide +kernel, by decide +kernel, hanswered, hend⟩

end ChainIndex.Scan
