import ChainIndex.Proofs.Conduct
import ChainIndex.Proofs.LiveAnswers
import ChainIndex.Proofs.Rounds

/-!
# Runs that end with the store

When a request to the store fails, the run ends with just that error: nothing at all is asked after
it, so that the store is left as the calls before it have left it. This holds on any side, whatever
its store and its node reply. The checkpoint is then before the block that the run was at, because a
round writes it last, and only as far as the blocks that the round leaves behind.
-/

namespace ChainIndex.Scan

open Program (Obeys Call)
open Store (Memory)

/-! ## Rounds give up with the store -/

theorem breakOff_of_isStoreFailure {e : Error} (h : e.isStoreFailure) (cursor : Nat) :
    breakOff cursor e = .fail e := by
  cases e with
  | store detail => rfl
  | node | malformed | settings | other => cases h

/-- Whether a request comes up while a round is settled. -/
def Request.isSettling : Request → Bool
  | .store (.config _) | .store (.putConfig _ _) | .cancelled => true
  | _ => false

theorem moveTo_heeds (number : Nat) : Heeds (·.isSettling) (Checkpoint.moveTo number) := by
  refine heeds_store rfl ?_
  intro found
  split
  · exact .done ()
  · exact store_heeds rfl

theorem endBefore_heeds (cursor : Nat) : Heeds (·.isSettling) (endBefore cursor) :=
  Obeys.bind (moveTo_heeds (cursor - 1)) fun _ => .done _

theorem breakOff_heeds (cursor : Nat) (e : Error) : Heeds (·.isSettling) (breakOff cursor e) := by
  unfold breakOff
  split
  · refine Obeys.bind (cancelled_heeds rfl) ?_
    intro isCancelled
    cases isCancelled with
    | true => exact endBefore_heeds cursor
    | false => exact .fail e
  · exact .fail e

theorem settle_heeds (setup : Setup) (cursor : Nat) (v : Visit) :
    Heeds (·.isSettling) (settle setup cursor v) := by
  cases v with
  | cancelled => exact endBefore_heeds cursor
  | absent => exact Obeys.bind (moveTo_heeds (cursor - 1)) fun _ => .done _
  | failed e => exact breakOff_heeds cursor e
  | processed =>
    show Heeds _ (if 0 < setup.interval ∧ cursor % setup.interval = 0 then _ else _)
    split
    · exact Obeys.bind (moveTo_heeds cursor) fun _ => .done _
    · exact .done _

section

variable (interval : Nat) (caller : String)

/-- What goes on after a failure that is not the store's may do so, and the store's is passed on. -/
theorem attempt_heeds {α β : Type} {allows : Request → Prop} {p : Procedure β}
    {f : Except Error β → Procedure α} (hp : Heeds allows p)
    (hpass : ∀ e, e.isStoreFailure → f (.error e) = .fail e)
    (hf : ∀ r, Heeds (fun _ => True) (f r)) : Heeds (fun _ => True) (p.attempt.bind f) := by
  refine Obeys.attempt_bind hp (fun _ _ => trivial) ?_ hf
  intro request reply e _ he
  exact ⟨he, hpass e (Request.isStoreFailure_of_some he)⟩

theorem scanBlock_heeds (cursor : Nat) (b : Block) :
    Heeds (fun _ => True) (scanBlock ⟨interval, Observer.standard caller⟩ cursor b) := by
  have hblock : Heeds (fun _ => True)
      (indexBlock ⟨interval, Observer.standard caller⟩ (asked b cursor)) := by
    refine Obeys.mono (indexBlock_processes interval caller (asked b cursor))
      (fun _ _ => trivial) ?_
    intro request reply e _ he
    exact Request.breaking?_of_storeFailure? he
  refine attempt_heeds hblock (fun e he => breakOff_of_isStoreFailure he cursor) ?_
  intro r
  cases r with
  | error e => exact (breakOff_heeds cursor e).widen fun _ _ => trivial
  | ok _ =>
    exact (settle_heeds ⟨interval, Observer.standard caller⟩ cursor .processed).widen
      fun _ _ => trivial

theorem advance_heeds (cursor : Nat) :
    Heeds (fun _ => True) (advance ⟨interval, Observer.standard caller⟩ cursor) := by
  refine Obeys.bind (cancelled_heeds trivial) ?_
  intro isCancelled
  cases isCancelled with
  | true => exact (endBefore_heeds cursor).widen fun _ _ => trivial
  | false =>
    have hask : Heeds (fun _ => True) (node (.block cursor)) := node_heeds trivial
    refine attempt_heeds hask (fun e he => breakOff_of_isStoreFailure he cursor) ?_
    intro r
    cases r with
    | error e => exact (breakOff_heeds cursor e).widen fun _ _ => trivial
    | ok found =>
      cases found with
      | none =>
        exact (settle_heeds ⟨interval, Observer.standard caller⟩ cursor .absent).widen
          fun _ _ => trivial
      | some b => exact scanBlock_heeds interval caller cursor b

theorem scan_heeds (rounds cursor : Nat) :
    Heeds (fun _ => True) (scan ⟨interval, Observer.standard caller⟩ rounds cursor) := by
  induction rounds generalizing cursor with
  | zero => exact .done _
  | succ rounds ih =>
    refine Obeys.bind (advance_heeds interval caller cursor) ?_
    intro position
    cases position with
    | stopped last => exact .done _
    | scanning cursor => exact ih cursor

theorem start_heeds (start : Option Nat) : Heeds (·.isSettling) (Checkpoint.start start) := by
  cases start with
  | some number => exact .done number
  | none =>
    refine Obeys.bind (heeds_store rfl ?_) fun _ => .done _
    intro found
    cases found with
    | none => exact .done 0
    | some value => exact ofExcept_obeys (Checkpoint.ofText value)

/-- A run gives up when the store fails. -/
theorem launch_heeds (start : Option Nat) (rounds : Nat) :
    Heeds (fun _ => True) (launch ⟨interval, Observer.standard caller⟩ start rounds) :=
  Obeys.bind ((start_heeds start).widen fun _ _ => trivial) fun cursor =>
    scan_heeds interval caller rounds cursor

end

/-! ## What a round writes to the config -/

/-- A call that writes nothing to the config but the checkpoint, with a number up to a limit. -/
def UpTo (limit : Nat) (call : Call interface) : Prop :=
  ∀ name value, call.request = Request.store (.putConfig name value) →
    name = Checkpoint.key ∧ ∃ number, number ≤ limit ∧ value = Checkpoint.text number

/-- Calls of which only the last may write to the config, and that only up to a limit. -/
def WritesLast (limit : Nat) (calls : List (Call interface)) : Prop :=
  ∃ quiet writes, calls = quiet ++ writes ∧
    (∀ call ∈ quiet, Request.isConfigWrite call.request = false) ∧ writes.length ≤ 1 ∧
    ∀ call ∈ writes, UpTo limit call

theorem upTo_of_quiet {limit : Nat} {call : Call interface}
    (h : Request.isConfigWrite call.request = false) : UpTo limit call := by
  intro name value hrequest
  rw [hrequest] at h
  cases h

theorem UpTo.mono {limit limit' : Nat} {call : Call interface} (h : UpTo limit call)
    (hle : limit ≤ limit') : UpTo limit' call := by
  intro name value hrequest
  obtain ⟨hname, number, hnumber, hvalue⟩ := h name value hrequest
  exact ⟨hname, number, Nat.le_trans hnumber hle, hvalue⟩

section

variable {limit : Nat} {calls : List (Call interface)}

theorem writesLast_of_quiet (h : ∀ call ∈ calls, Request.isConfigWrite call.request = false) :
    WritesLast limit calls :=
  ⟨calls, [], (List.append_nil calls).symm, h, Nat.zero_le 1, by simp⟩

/-- Calls that do not write may come before. -/
theorem WritesLast.after {front : List (Call interface)} (h : WritesLast limit calls)
    (hfront : ∀ call ∈ front, Request.isConfigWrite call.request = false) :
    WritesLast limit (front ++ calls) := by
  obtain ⟨quiet, writes, rfl, hquiet, hone, hwrites⟩ := h
  refine ⟨front ++ quiet, writes, (List.append_assoc front quiet writes).symm, ?_, hone, hwrites⟩
  intro call hcall
  rcases List.mem_append.1 hcall with hcall | hcall
  · exact hfront call hcall
  · exact hquiet call hcall

theorem WritesLast.upTo (h : WritesLast limit calls) : ∀ call ∈ calls, UpTo limit call := by
  obtain ⟨quiet, writes, rfl, hquiet, -, hwrites⟩ := h
  intro call hcall
  rcases List.mem_append.1 hcall with hcall | hcall
  · exact upTo_of_quiet (hquiet call hcall)
  · exact hwrites call hcall

/-- Nothing is written before the last call. -/
theorem WritesLast.quiet {before : List (Call interface)} {last : Call interface}
    (h : WritesLast limit (before ++ [last])) :
    ∀ call ∈ before, Request.isConfigWrite call.request = false := by
  obtain ⟨quiet, writes, hcalls, hquiet, hone, -⟩ := h
  have hshort : before.length ≤ quiet.length := by
    have hlength := congrArg List.length hcalls
    simp only [List.length_append, List.length_cons, List.length_nil] at hlength
    omega
  have hbefore : before <+: quiet :=
    List.prefix_of_prefix_length_le (List.prefix_append before [last])
      (hcalls ▸ List.prefix_append quiet writes) hshort
  intro call hcall
  exact hquiet call (hbefore.subset hcall)

end

section

variable {σ : Type} {answer : Program.Answering interface σ} {setup : Setup}

theorem calls_store (request : Store.Request) (s : σ) :
    (store request).calls answer s =
      [⟨Request.store request, (answer (Request.store request) s).1⟩] := by
  show _ :: Program.calls answer (Program.ofExcept (answer (Request.store request) s).1) _ = _
  cases (answer (Request.store request) s).1 <;> rfl

/-- Moving the checkpoint reads it first and may write it then. -/
theorem moveTo_writesLast (number : Nat) (s : σ) :
    WritesLast number ((Checkpoint.moveTo number).calls answer s) := by
  unfold Checkpoint.moveTo
  rw [Program.bind_eq, Program.calls_bind, calls_store]
  refine WritesLast.after ?_ (by simp [Request.isConfigWrite])
  split
  · rename_i found s' _
    by_cases hthere : found = some (Checkpoint.text number)
    · rw [if_pos hthere]
      exact writesLast_of_quiet (by simp [Program.calls])
    · rw [if_neg hthere, calls_store]
      refine ⟨[], _, rfl, by simp, Nat.le_refl 1, ?_⟩
      intro call hcall name value hrequest
      rw [List.mem_singleton.1 hcall] at hrequest
      cases hrequest
      exact ⟨rfl, number, Nat.le_refl number, rfl⟩
  · exact writesLast_of_quiet (by simp)

/-- The calls of a round at a block: the config is written last, and if the round leaves blocks
behind, then only up to these. -/
structure Orderly (cursor : Nat) (calls : List (Call interface)) (r : Except Error Position) :
    Prop where
  writes : ∃ limit, WritesLast limit calls ∧
    ∀ next, r = .ok (.scanning next) → limit ≤ next - 1
  onwards : ∀ next, r = .ok (.scanning next) → cursor ≤ next

theorem Orderly.after {cursor : Nat} {front calls : List (Call interface)}
    {r : Except Error Position} (h : Orderly cursor calls r)
    (hfront : ∀ call ∈ front, Request.isConfigWrite call.request = false) :
    Orderly cursor (front ++ calls) r := by
  obtain ⟨limit, hlast, hlimit⟩ := h.writes
  exact ⟨⟨limit, hlast.after hfront, hlimit⟩, h.onwards⟩

theorem orderly_fail (cursor : Nat) (e : Error) : Orderly cursor [] (.error e) where
  writes := ⟨0, writesLast_of_quiet (by simp), fun _ h => nomatch h⟩
  onwards _ h := nomatch h

/-- To close a round takes no calls but those that move the checkpoint. -/
theorem calls_close (number : Nat) (position : Position) (s : σ) :
    (close number position).calls answer s = (Checkpoint.moveTo number).calls answer s := by
  unfold close
  rw [Program.calls_bind]
  split <;> exact List.append_nil _

theorem close_orderly {cursor number : Nat} {position : Position} (s : σ)
    (hscanning : ∀ next, position = .scanning next → number ≤ next - 1 ∧ cursor ≤ next) :
    Orderly cursor ((close number position).calls answer s)
      (Program.run answer (close number position) s).1 := by
  have hposition : ∀ next,
      (Program.run answer (close number position) s).1 = .ok (.scanning next) →
        position = .scanning next := by
    intro next hrun
    unfold close at hrun
    rw [Program.run_bind] at hrun
    split at hrun
    · exact Except.ok.inj hrun
    · cases hrun
  rw [calls_close]
  refine ⟨⟨number, moveTo_writesLast number s, ?_⟩, ?_⟩
  · intro next hrun
    exact (hscanning next (hposition next hrun)).1
  · intro next hrun
    exact (hscanning next (hposition next hrun)).2

theorem stop_orderly (cursor : Nat) (s : σ) :
    Orderly cursor ((endBefore cursor).calls answer s)
      (Program.run answer (endBefore cursor) s).1 :=
  close_orderly s nofun

theorem settle_orderly (cursor : Nat) (v : Visit) (s : σ) :
    Orderly cursor ((settle setup cursor v).calls answer s)
      (Program.run answer (settle setup cursor v) s).1 := by
  cases v with
  | cancelled => exact stop_orderly cursor s
  | absent =>
    apply close_orderly s
    rintro next ⟨⟩
    exact ⟨Nat.le_refl _, Nat.le_refl _⟩
  | failed e =>
    show Orderly cursor ((breakOff cursor e).calls answer s)
      (Program.run answer (breakOff cursor e) s).1
    unfold breakOff
    by_cases hnode : e.isNodeFailure
    · rw [if_pos hnode]
      have hdecided : ∀ (isCancelled : Bool) (s' : σ),
          Orderly cursor
            (Program.calls answer (if isCancelled then endBefore cursor else .fail e) s')
            (Program.run answer (if isCancelled then endBefore cursor else .fail e) s').1 := by
        intro isCancelled s'
        cases isCancelled with
        | true => exact stop_orderly cursor s'
        | false => exact orderly_fail cursor e
      -- whether the run was cancelled is asked first
      have hasked : ∀ call ∈ [(⟨Request.cancelled, (answer Request.cancelled s).1⟩ :
          Call interface)], Request.isConfigWrite call.request = false := by
        simp [Request.isConfigWrite]
      exact (hdecided (answer Request.cancelled s).1 (answer Request.cancelled s).2).after hasked
    · rw [if_neg hnode]
      exact orderly_fail cursor e
  | processed =>
    simp only [settle, Program.bind_eq, Program.pure_eq]
    by_cases hdue : 0 < setup.interval ∧ cursor % setup.interval = 0
    · rw [if_pos hdue]
      apply close_orderly s
      rintro next ⟨⟩
      exact ⟨Nat.le_refl _, Nat.le_succ cursor⟩
    · rw [if_neg hdue]
      refine ⟨⟨0, writesLast_of_quiet (by simp [Program.calls]), fun _ _ => Nat.zero_le _⟩, ?_⟩
      rintro next ⟨⟩
      exact Nat.le_succ cursor

/-- Until a visit is settled, nothing is written to the config. -/
theorem visit_quiet (interval : Nat) (caller : String) (cursor : Nat) (s : σ) :
    ∀ call ∈ (visit ⟨interval, Observer.standard caller⟩ cursor).calls answer s,
      Request.isConfigWrite call.request = false := by
  have hobeys : (visit ⟨interval, Observer.standard caller⟩ cursor).Obeys
      ⟨fun request => Request.isConfigWrite request = false, fun _ _ => none⟩ := by
    refine Obeys.bind (.ask rfl ?_ .done) ?_
    · intro _ _ he
      cases he
    intro isCancelled
    cases isCancelled with
    | true => exact .done _
    | false =>
      refine Obeys.attempt_bind (.ask rfl ?_ ofExcept_obeys) (fun _ => id) ?_ ?_
      · intro _ _ he
        cases he
      · intro _ _ _ _ he
        cases he
      intro r
      cases r with
      | error e => exact .done _
      | ok found =>
        cases found with
        | none => exact .done _
        | some b =>
          have hblock := indexBlock_processes interval caller (asked b cursor)
          refine Obeys.attempt_bind hblock ?_ ?_ ?_
          · intro request hrequest
            exact Request.isConfigWrite_of_isProcessing hrequest
          · intro _ _ _ _ he
            cases he
          · intro r
            cases r <;> exact .done _
  exact hobeys.allowed

/-- A round writes to the config last, if at all. -/
theorem advance_orderly (interval : Nat) (caller : String) (cursor : Nat) (s : σ) :
    Orderly cursor ((advance ⟨interval, Observer.standard caller⟩ cursor).calls answer s)
      (Program.run answer (advance ⟨interval, Observer.standard caller⟩ cursor) s).1 := by
  have hquiet : ∀ call ∈ (visit ⟨interval, Observer.standard caller⟩ cursor).calls answer s,
      Request.isConfigWrite call.request = false := visit_quiet interval caller cursor s
  rw [advance_eq, Program.calls_bind, Program.run_bind]
  cases Program.run answer (visit ⟨interval, Observer.standard caller⟩ cursor) s with
  | mk r s' =>
    cases r with
    | ok v => exact (settle_orderly cursor v s').after hquiet
    | error e => exact (orderly_fail cursor e).after hquiet

/-! ## Runs -/

/-- A failure of the store comes in some round, and until then the checkpoint is written only up to
the blocks before that. -/
theorem scan_fails (interval : Nat) (caller : String) {before : List (Call interface)}
    {call : Call interface} {e : Error}
    (hfails : Request.storeFailure? call.request call.reply = some e) (rounds cursor : Nat) (s : σ)
    (hcalls : (scan ⟨interval, Observer.standard caller⟩ rounds cursor).calls answer s =
      before ++ [call]) :
    ∃ done reached s' round,
      Program.run answer (scan ⟨interval, Observer.standard caller⟩ done cursor) s =
          (.ok (.scanning reached), s') ∧
        before = (scan ⟨interval, Observer.standard caller⟩ done cursor).calls answer s ++ round ∧
        round ++ [call] =
          (advance ⟨interval, Observer.standard caller⟩ reached).calls answer s' ∧
        cursor ≤ reached ∧ ∀ call ∈ before, UpTo (reached - 1) call := by
  have hheeds := advance_heeds interval caller
  have horderly : ∀ cursor s, Orderly cursor
      ((advance ⟨interval, Observer.standard caller⟩ cursor).calls answer s)
      (Program.run answer (advance ⟨interval, Observer.standard caller⟩ cursor) s).1 :=
    advance_orderly interval caller
  generalize (⟨interval, Observer.standard caller⟩ : Setup) = setup at hcalls hheeds horderly ⊢
  induction rounds generalizing cursor s before with
  | zero => simp [scan, Program.calls] at hcalls
  | succ rounds ih =>
    have hround := horderly cursor s
    rcases (hheeds cursor).last_of_bind hcalls hfails with
      ⟨e', s₁, hrun, hlast⟩ | ⟨position, s₁, rest, hrun, rfl, hrest⟩
    · -- the first round fails, and nothing has been written in it
      refine ⟨0, cursor, s, before, rfl, rfl, hlast.symm, Nat.le_refl cursor, ?_⟩
      obtain ⟨limit, hwrites, -⟩ := hround.writes
      rw [hlast] at hwrites
      intro call hcall
      exact upTo_of_quiet (hwrites.quiet call hcall)
    cases position with
    | stopped last => simp [Program.calls] at hrest
    | scanning next =>
      rw [hrun] at hround
      obtain ⟨done, reached, s', round, hreached, rfl, hfailed, hle, hupTo⟩ := ih next s₁ hrest
      obtain ⟨limit, hwrites, hlimit⟩ := hround.writes
      have hback := hlimit next rfl
      have honwards := hround.onwards next rfl
      refine ⟨done + 1, reached, s', round, ?_, ?_, hfailed, by omega, ?_⟩
      · rw [scan, Program.bind_eq, Program.run_bind, hrun]
        exact hreached
      · rw [scan, Program.bind_eq, Program.calls_bind, hrun]
        exact (List.append_assoc _ _ _).symm
      · intro earlier hearlier
        rcases List.mem_append.1 hearlier with hearlier | hearlier
        · exact (hwrites.upTo earlier hearlier).mono (by omega)
        · exact hupTo earlier hearlier

/-- Where a run starts is read from the store, if it is not given. -/
theorem start_calls (start : Option Nat) (s : σ) :
    (Checkpoint.start start).calls answer s = [] ∨
      start = none ∧ ∃ reply, (Checkpoint.start start).calls answer s =
        [⟨Request.store (.config Checkpoint.key), reply⟩] := by
  cases start with
  | some number => exact .inl rfl
  | none =>
    have hlast : (Checkpoint.last).calls answer s =
        [⟨Request.store (.config Checkpoint.key),
          (answer (Request.store (.config Checkpoint.key)) s).1⟩] := by
      unfold Checkpoint.last
      rw [Program.bind_eq, Program.calls_bind, calls_store]
      split
      · rename_i found s' _
        cases found with
        | none => rfl
        | some value =>
          show _ ++ Program.calls answer (Program.ofExcept (Checkpoint.ofText value)) s' = _
          cases Checkpoint.ofText value <;> rfl
      · rfl
    refine .inr ⟨rfl, (answer (Request.store (.config Checkpoint.key)) s).1, ?_⟩
    unfold Checkpoint.start
    rw [Program.bind_eq, Program.calls_bind, hlast]
    split <;> rfl

end

/-! ## The end of a run -/

section

variable {σ : Type}

/-- A call is made in a run's round at a block: some rounds have brought the run there, and the
calls before are those of these rounds and the first ones of the round. -/
def MadeAt (side : Side σ) (setup : Setup) (start : Option Nat) (s : σ)
    (before : List (Call interface)) (call : Call interface) (cursor : Nat) : Prop :=
  ∃ rounds s' round,
    (launch setup start rounds).run side s = (.ok (.scanning cursor), s') ∧
      before = (launch setup start rounds).calls side.answering s ++ round ∧
      round ++ [call] = (advance setup cursor).calls side.answering s'

/-- The call with which a run fails is the one that reads where to start, or it is made at a block
and the checkpoint has only been written up to the block before. -/
theorem launch_fails (side : Side σ) (interval : Nat) (caller : String) (start : Option Nat)
    (rounds : Nat) (s : σ) {before : List (Call interface)} {call : Call interface} {e : Error}
    (hfails : Request.storeFailure? call.request call.reply = some e)
    (hcalls : (launch ⟨interval, Observer.standard caller⟩ start rounds).calls side.answering s =
      before ++ [call]) :
    (start = none ∧ before = []) ∨
      ∃ cursor, MadeAt side ⟨interval, Observer.standard caller⟩ start s before call cursor ∧
        ∀ earlier ∈ before, UpTo (cursor - 1) earlier := by
  have hstart : (Checkpoint.start start).calls side.answering s = [] ∨
      start = none ∧ ∃ reply, (Checkpoint.start start).calls side.answering s =
        [⟨Request.store (.config Checkpoint.key), reply⟩] := start_calls start s
  rcases (start_heeds start).last_of_bind hcalls hfails with
    ⟨e', s₁, hrun, hlast⟩ | ⟨first, s₁, rest, hrun, rfl, hrest⟩
  · -- nothing comes before the only request
    rcases hstart with hnone | ⟨hstart, reply, hone⟩
    · rw [hnone] at hlast
      simp at hlast
    · rw [hone] at hlast
      have hfirst : before ++ [call] = [] ++ [_] := hlast.symm.trans (List.nil_append _).symm
      exact .inl ⟨hstart, (List.append_inj' hfirst rfl).1⟩
  obtain ⟨done, cursor, s', round, hreached, rfl, hround, -, hupTo⟩ :=
    scan_fails interval caller hfails rounds first s₁ hrest
  refine .inr ⟨cursor, ⟨done, s', round, ?_, ?_, hround⟩, ?_⟩
  · show Program.run side.answering ((Checkpoint.start start).bind _) s = _
    rw [Program.run_bind, hrun]
    exact hreached
  · rw [launch, Program.bind_eq, Program.calls_bind, hrun]
    exact (List.append_assoc _ _ _).symm
  · intro earlier hearlier
    rcases List.mem_append.1 hearlier with hearlier | hearlier
    · apply upTo_of_quiet
      rcases hstart with hnone | ⟨hstart, reply, hone⟩
      · rw [hnone] at hearlier
        cases hearlier
      · rw [hone] at hearlier
        rw [List.mem_singleton.1 hearlier]
        rfl
    · exact hupTo earlier hearlier

/-- When the store fails in a run, the run ends with just that error and asks nothing more, neither
the store nor the node. What the store holds is then what the calls before have left in it, if a
request that fails leaves a store alone, and the checkpoint has not been moved past the blocks
before the one that the run was at. -/
theorem store_failure_ends_run (side : Side σ) (interval : Nat) (caller : String)
    (start : Option Nat) (rounds : Nat) (s : σ) {before later : List (Call interface)}
    {call : Call interface} {e : Error}
    (hcalls : (launch ⟨interval, Observer.standard caller⟩ start rounds).calls side.answering s =
      before ++ call :: later)
    (hfails : Request.storeFailure? call.request call.reply = some e) :
    let setup : Setup := ⟨interval, Observer.standard caller⟩
    let result := (launch setup start rounds).run side s
    later = [] ∧ result.1 = .error e ∧
      result.2 = (side.answering call.request (Program.after side.answering before s)).2 ∧
      (∀ (α : Type) (held : σ → α),
        (∀ request s e, (side.store request s).1 = .error e →
          held (side.store request s).2 = held s) →
        held result.2 = held (Program.after side.answering before s)) ∧
      ((start = none ∧ before = []) ∨
        ∃ cursor, MadeAt side setup start s before call cursor ∧
          ∀ earlier ∈ before, UpTo (cursor - 1) earlier) := by
  intro setup result
  obtain ⟨rfl, hrun⟩ := (launch_heeds interval caller start rounds).ends hcalls hfails
  have hresult : result = (.error e,
      (side.answering call.request (Program.after side.answering before s)).2) := hrun
  refine ⟨rfl, ?_, ?_, ?_, launch_fails side interval caller start rounds s hfails hcalls⟩
  · rw [hresult]
  · rw [hresult]
  · intro α held hheld
    rw [hresult]
    have hreply := Program.reply_of_calls hcalls
    obtain ⟨request, reply⟩ := call
    cases request with
    | store request =>
      obtain ⟨rfl, -⟩ := Request.of_storeFailure? hfails
      exact hheld request _ e hreply.symm
    | node | cache | cancelled => cases hfails

/-- A request to a store in memory that fails leaves the store alone, whether it reached it or
not. -/
theorem Surroundings.memory_of_failure {ω : Type} (env : Surroundings ω) {request : Store.Request}
    {s : Situation ω} {e : Error} (h : (env.side.store request s).1 = .error e) :
    (env.side.store request s).2.memory = s.memory := by
  have hanswer : env.side.store request s = env.answer (.store request) s := rfl
  rw [hanswer] at h ⊢
  obtain ⟨detail, world, hstore⟩ | ⟨world, hstore⟩ := env.answer_store_cases request s
  · rw [hstore]
  · rw [hstore] at h ⊢
    exact Store.Memory.answer_of_error (Prod.ext h rfl)

/-- Surroundings with a block that has a transfer, in which operations cannot be stored. -/
def fullDisk : Surroundings Unit where
  node request world := (Answers.lone transferring (.node "closed") request, world)
  fault
    | .addOperation _, world => (some "disk full", world)
    | _, world => (none, world)
  cancelled _ := false

/-- A run there on an empty store. -/
abbrev fullDiskRun : Procedure Position := launch ⟨1, Observer.standard "caller"⟩ none 3

theorem full_disk_ends_run :
    (fullDiskRun.run fullDisk.side ⟨(), Memory.empty, Cache.empty⟩).2.memory.transactions.length =
        1 ∧
      ∃ before call e,
        fullDiskRun.calls fullDisk.side.answering ⟨(), Memory.empty, Cache.empty⟩ =
            before ++ [call] ∧
          Request.storeFailure? call.request call.reply = some e ∧
          (fullDiskRun.run fullDisk.side ⟨(), Memory.empty, Cache.empty⟩).1 = .error e ∧
          (fullDiskRun.run fullDisk.side ⟨(), Memory.empty, Cache.empty⟩).2.memory =
            (Program.after fullDisk.side.answering before
              ⟨(), Memory.empty, Cache.empty⟩).memory := by
  have hany : (fullDiskRun.calls fullDisk.side.answering ⟨(), Memory.empty, Cache.empty⟩).any
      (fun call => (Request.storeFailure? call.request call.reply).isSome) := by decide +kernel
  have hstored : (fullDiskRun.run fullDisk.side
      ⟨(), Memory.empty, Cache.empty⟩).2.memory.transactions.length = 1 := by decide +kernel
  obtain ⟨call, hmem, hsome⟩ := List.any_eq_true.1 hany
  obtain ⟨e, hfails⟩ := Option.isSome_iff_exists.1 hsome
  obtain ⟨before, later, hcalls⟩ := List.append_of_mem hmem
  obtain ⟨rfl, hresult, -, hheld, -⟩ := store_failure_ends_run fullDisk.side 1 "caller" none 3
    ⟨(), Memory.empty, Cache.empty⟩ hcalls hfails
  have hmemory := hheld Memory Situation.memory fun request s e => fullDisk.memory_of_failure
  exact ⟨hstored, before, call, e, hcalls, hfails, hresult, hmemory⟩

end

end ChainIndex.Scan
