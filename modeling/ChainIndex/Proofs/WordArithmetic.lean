import ChainIndex.Proofs.RequestedNumbers

/-!
# Numbers of blocks as words

The numbers of blocks are words of 64 bits, and the arithmetic of words is exact only where the
result is a word: elsewhere it may stop the program or wrap around. `Arithmetic` is such an
arithmetic, and the procedures below are those of a scanner that counts with it. They are the
procedures themselves, as long as the cursor is a word and the checkpoint that is stored is not the
greatest one: then every result is a word. Every run keeps to this, and leaves such a checkpoint.
-/

namespace ChainIndex.Scan

open Program (Obeys Returns)
open Store (Memory)

variable {ω : Type}

/-! ## Arithmetic of words -/

/-- How a scanner counts: by one up, by one down, and modulo an interval. What comes of a result
that is no word, or of a division by zero, is left open. -/
structure Arithmetic where
  next : Nat → Procedure Nat
  previous : Nat → Procedure Nat
  remainder : Nat → Nat → Procedure Nat

/-- The arithmetic is right wherever words have a result that is a word. -/
structure Arithmetic.Exact (A : Arithmetic) : Prop where
  next : ∀ n, n < word64Max → A.next n = .done (n + 1)
  previous : ∀ n, 0 < n → n ≤ word64Max → A.previous n = .done (n - 1)
  remainder : ∀ n interval, n ≤ word64Max → 0 < interval → interval ≤ word64Max →
    A.remainder n interval = .done (n % interval)

namespace Arithmetic

/-- The program stops where a result is no word. -/
def trapping : Arithmetic where
  next n := if n < word64Max then .done (n + 1) else .fail (.other "overflow")
  previous n := if 0 < n then .done (n - 1) else .fail (.other "overflow")
  remainder n interval :=
    if 0 < interval then .done (n % interval) else .fail (.other "division by zero")

/-- Results that are no words wrap around. -/
def wrapping : Arithmetic where
  next n := .done ((n + 1) % (word64Max + 1))
  previous n := .done ((n + word64Max) % (word64Max + 1))
  remainder n interval :=
    if 0 < interval then .done (n % interval) else .fail (.other "division by zero")

theorem trapping_exact : trapping.Exact where
  next _ h := if_pos h
  previous _ h _ := if_pos h
  remainder _ _ _ h _ := if_pos h

theorem wrapping_exact : wrapping.Exact where
  next n h := congrArg Program.done (Nat.mod_eq_of_lt (Nat.succ_lt_succ h))
  previous n h hn := by
    have hsum : n + word64Max = n - 1 + (word64Max + 1) := by omega
    refine congrArg Program.done ?_
    rw [hsum, Nat.add_mod_right, Nat.mod_eq_of_lt (by omega)]
  remainder _ _ _ h _ := if_pos h

/-! ## A scanner that counts -/

section

variable (A : Arithmetic)

/-- Store the id that a block reports for the block before it, unless that id is known. -/
def recordPreviousId (block : Block) : Procedure Unit := do
  if block.number ≤ 1 ∨ block.previous = "" then pure ()
  else
    let previous ← A.previous block.number
    let number ← Program.ofExcept (Quantity.blockNumber.int64 previous)
    match ← store (.block number) with
    | none => pure ()
    | some previous =>
      if previous.id = "" then store (.setBlockId number block.previous) else pure ()

/-- Process a block with everything in it. -/
def indexBlock (setup : Setup) (block : Block) : Procedure Unit := do
  let _ ← recordBlock block
  A.recordPreviousId block
  indexTransactions setup block block.transactions

/-- Whether the checkpoint is due after a block. An interval of zero is not divided by. -/
def isDue (interval cursor : Nat) : Procedure Bool :=
  if 0 < interval then do return (← A.remainder cursor interval) = 0 else pure false

/-- Scan a block that the node has given for a number. -/
def scanBlock (setup : Setup) (cursor : Nat) (block : Block) : Procedure Position := do
  match ← (A.indexBlock setup (asked block cursor)).attempt with
  | .error e => breakOff cursor e
  | .ok () =>
    if ← A.isDue setup.interval cursor then Checkpoint.moveTo cursor else pure ()
    return .scanning (← A.next cursor)

/-- One round at a block. -/
def advance (setup : Setup) (cursor : Nat) : Procedure Position := do
  if ← cancelled then endBefore cursor
  else
    match ← (node (.block cursor)).attempt with
    | .error e => breakOff cursor e
    | .ok none =>
      Checkpoint.moveTo (cursor - 1)
      pure (.scanning cursor)
    | .ok (some block) => A.scanBlock setup cursor block

/-- A number of rounds, fewer if the scan stops. -/
def scan (setup : Setup) : (rounds : Nat) → (cursor : Nat) → Procedure Position
  | 0, cursor => pure (.scanning cursor)
  | rounds + 1, cursor => do
    match ← A.advance setup cursor with
    | .stopped last => pure (.stopped last)
    | .scanning cursor => scan setup rounds cursor

/-- The block to start with: the one asked for, or else the one after the checkpoint. -/
def start : Option Nat → Procedure Nat
  | some number => pure number
  | none => do A.next (← Checkpoint.last)

/-- A run of a scanner. -/
def launch (setup : Setup) (start : Option Nat) (rounds : Nat) : Procedure Position := do
  A.scan setup rounds (← A.start start)

end

end Arithmetic

/-! ## How far a scan gets -/

/-- A number that fits the column of block numbers is not the greatest word, by far. -/
theorem lt_word64Max {n : Nat} (h : (n : Int) ≤ int64Max) : n < word64Max := by
  unfold int64Max at h
  unfold word64Max
  omega

/-- A block that is processed has a number that fits its column. -/
theorem indexBlock_returns (setup : Setup) (b : Block) :
    (indexBlock setup b).Returns fun _ => b.number < word64Max :=
  (recordBlock_returns b).bind fun _ hfits =>
    Program.returns_of_forall (fun _ => lt_word64Max hfits) _

theorem visit_returns (setup : Setup) (cursor : Nat) :
    (visit setup cursor).Returns fun v => v = .processed → cursor < word64Max := by
  rw [visit_eq]
  rintro (_ | _)
  · rintro (e | _ | b)
    · exact nofun
    · exact nofun
    refine (indexBlock_returns setup (asked b cursor)).attempt.bind fun processed hlt => ?_
    cases processed with
    | error e => exact nofun
    | ok _ => exact fun _ => hlt () rfl
  · exact nofun

/-- A scan that goes on goes on at a word. -/
def Position.AtWord : Position → Prop
  | .scanning cursor => cursor ≤ word64Max
  | .stopped _ => True

theorem settle_returns (setup : Setup) {cursor : Nat} {v : Visit} (hcursor : cursor ≤ word64Max)
    (hv : v = .processed → cursor < word64Max) : (settle setup cursor v).Returns (·.AtWord) := by
  have hends : (endBefore cursor).Returns (·.AtWord) := Program.returns_bind _ fun _ => trivial
  cases v with
  | cancelled => exact hends
  | absent => exact Program.returns_bind _ fun _ => hcursor
  | failed e =>
    show Returns _ (breakOff cursor e)
    unfold breakOff
    split
    · rintro (_ | _)
      · trivial
      · exact hends
    · trivial
  | processed =>
    have hnext : (Position.scanning (cursor + 1)).AtWord := hv rfl
    show Returns _ (if 0 < setup.interval ∧ cursor % setup.interval = 0 then _ else _)
    split
    · exact Program.returns_bind _ fun _ => hnext
    · exact hnext

theorem advance_returns (setup : Setup) {cursor : Nat} (hcursor : cursor ≤ word64Max) :
    (advance setup cursor).Returns (·.AtWord) := by
  rw [advance_eq]
  exact (visit_returns setup cursor).bind fun v hv => settle_returns setup hcursor hv

/-- A run starts at a word. -/
theorem start_returns {start : Option Nat} (hstart : ∀ n ∈ start, n ≤ word64Max) :
    (Checkpoint.start start).Returns (· ≤ word64Max) := by
  cases start with
  | some n => exact hstart n rfl
  | none =>
    refine Program.returns_bind _ fun c => ?_
    exact Nat.le_of_lt_succ (Nat.mod_lt _ (Nat.succ_pos word64Max))

/-! ## Which checkpoints are written -/

/-- What a request writes to the config is a checkpoint, and not the greatest word. -/
def Request.MovesOn (request : Request) : Prop :=
  ∀ name value, request = .store (.putConfig name value) →
    name = Checkpoint.key ∧ ∃ n, n < word64Max ∧ value = Checkpoint.text n

theorem Request.movesOn_of_isConfigWrite {request : Request} (h : request.isConfigWrite = false) :
    request.MovesOn := by
  rintro name value rfl
  cases h

theorem moveTo_movesOn {n : Nat} (hn : n < word64Max) :
    Heeds (·.MovesOn) (Checkpoint.moveTo n) := by
  refine heeds_store nofun fun found => ?_
  split
  · exact .done ()
  · refine store_heeds ?_
    rintro _ _ ⟨⟩
    exact ⟨rfl, n, hn, rfl⟩

theorem settle_movesOn (setup : Setup) {cursor : Nat} {v : Visit} (hcursor : cursor ≤ word64Max)
    (hv : v = .processed → cursor < word64Max) : Heeds (·.MovesOn) (settle setup cursor v) := by
  have hbefore : Heeds (·.MovesOn) (Checkpoint.moveTo (cursor - 1)) :=
    moveTo_movesOn (by unfold word64Max at *; omega)
  have hends : Heeds (·.MovesOn) (endBefore cursor) := Obeys.bind hbefore fun _ => .done _
  cases v with
  | cancelled => exact hends
  | absent => exact Obeys.bind hbefore fun _ => .done _
  | failed e =>
    show Heeds _ (breakOff cursor e)
    unfold breakOff
    split
    · refine Obeys.bind (cancelled_heeds nofun) fun isCancelled => ?_
      cases isCancelled with
      | true => exact hends
      | false => exact .fail e
    · exact .fail e
  | processed =>
    show Heeds _ (if 0 < setup.interval ∧ cursor % setup.interval = 0 then _ else _)
    split
    · exact Obeys.bind (moveTo_movesOn (hv rfl)) fun _ => .done _
    · exact .done _

/-- Whether every checkpoint that a procedure writes can be gone on from. -/
abbrev MovesOn {α : Type} (p : Procedure α) : Prop :=
  p.Obeys ⟨fun request => Request.MovesOn request, fun _ _ => none⟩

theorem Heeds.movesOn {α : Type} {p : Procedure α} (h : Heeds (·.MovesOn) p) : MovesOn p :=
  Obeys.mono h (fun _ => id) fun _ _ _ _ he => (nomatch he)

section

variable (interval : Nat) (caller : String)

theorem visit_movesOn (cursor : Nat) :
    MovesOn (visit ⟨interval, Observer.standard caller⟩ cursor) := by
  rw [visit_eq]
  refine Obeys.bind (Heeds.movesOn (cancelled_heeds nofun)) fun isCancelled => ?_
  cases isCancelled with
  | true => exact .done _
  | false =>
    refine .ask nofun (fun _ _ he => (nomatch he)) ?_
    rintro (e | _ | b)
    · exact .done _
    · exact .done _
    · refine Obeys.attempt_bind (indexBlock_processes interval caller (asked b cursor))
        (fun _ h => Request.movesOn_of_isConfigWrite (Request.isConfigWrite_of_isProcessing h))
        (fun _ _ _ _ he => (nomatch he)) fun processed => ?_
      cases processed <;> exact .done _

theorem scan_movesOn (rounds : Nat) {cursor : Nat} (hcursor : cursor ≤ word64Max) :
    MovesOn (scan ⟨interval, Observer.standard caller⟩ rounds cursor) := by
  induction rounds generalizing cursor with
  | zero => exact .done _
  | succ rounds ih =>
    refine Obeys.bind_returns ?_ (advance_returns _ hcursor) fun position hposition => ?_
    · rw [advance_eq]
      exact Obeys.bind_returns (visit_movesOn interval caller cursor) (visit_returns _ cursor)
        fun v hv => (settle_movesOn _ hcursor hv).movesOn
    · cases position with
      | scanning next => exact ih hposition
      | stopped last => exact .done _

theorem launch_movesOn {start : Option Nat} (hstart : ∀ n ∈ start, n ≤ word64Max) (rounds : Nat) :
    MovesOn (launch ⟨interval, Observer.standard caller⟩ start rounds) := by
  refine Obeys.bind_returns ?_ (start_returns hstart) fun cursor hcursor =>
    scan_movesOn interval caller rounds hcursor
  cases start with
  | some n => exact .done n
  | none =>
    refine Obeys.bind (Heeds.movesOn (heeds_store nofun fun found => ?_)) fun _ => .done _
    cases found with
    | none => exact .done 0
    | some value => exact ofExcept_obeys _

end

/-! ## Where arithmetic is exact -/

namespace Arithmetic.Exact

variable {A : Arithmetic} (hA : A.Exact)
include hA

theorem recordPreviousId_eq {b : Block} (hb : b.number ≤ word64Max) :
    A.recordPreviousId b = Scan.recordPreviousId b := by
  unfold Arithmetic.recordPreviousId Scan.recordPreviousId
  split
  · rfl
  · rename_i hfirst
    rw [hA.previous b.number (by omega) hb]
    rfl

theorem indexBlock_eq (setup : Setup) {b : Block} (hb : b.number ≤ word64Max) :
    A.indexBlock setup b = Scan.indexBlock setup b := by
  unfold Arithmetic.indexBlock Scan.indexBlock
  rw [hA.recordPreviousId_eq hb]

theorem isDue_eq {interval cursor : Nat} (hinterval : interval ≤ word64Max)
    (hcursor : cursor ≤ word64Max) :
    A.isDue interval cursor = .done (decide (0 < interval ∧ cursor % interval = 0)) := by
  unfold isDue
  split
  · rw [hA.remainder cursor interval hcursor ‹_› hinterval]
    simp [*]
  · simp [*]

theorem scanBlock_eq {setup : Setup} (hinterval : setup.interval ≤ word64Max) {cursor : Nat}
    (hcursor : cursor ≤ word64Max) (b : Block) :
    A.scanBlock setup cursor b = Scan.scanBlock setup cursor b := by
  have hb : (asked b cursor).number ≤ word64Max := hcursor
  unfold Arithmetic.scanBlock
  rw [hA.indexBlock_eq setup hb]
  refine (indexBlock_returns setup (asked b cursor)).attempt.bind_congr fun processed hlt => ?_
  cases processed with
  | error e => rfl
  | ok _ =>
    have hnext : cursor < word64Max := hlt () rfl
    simp only [hA.isDue_eq hinterval hcursor, hA.next cursor hnext]
    by_cases hdue : 0 < setup.interval ∧ cursor % setup.interval = 0
    · simp [hdue]
    · simp [hdue]

theorem advance_eq {setup : Setup} (hinterval : setup.interval ≤ word64Max) {cursor : Nat}
    (hcursor : cursor ≤ word64Max) : A.advance setup cursor = Scan.advance setup cursor := by
  unfold Arithmetic.advance
  simp only [hA.scanBlock_eq hinterval hcursor]
  rfl

/-- A scan that starts at a word counts exactly. -/
theorem scan_eq {setup : Setup} (hinterval : setup.interval ≤ word64Max) (rounds : Nat)
    {cursor : Nat} (hcursor : cursor ≤ word64Max) :
    A.scan setup rounds cursor = Scan.scan setup rounds cursor := by
  induction rounds generalizing cursor with
  | zero => rfl
  | succ rounds ih =>
    unfold Arithmetic.scan Scan.scan
    rw [hA.advance_eq hinterval hcursor]
    refine (advance_returns setup hcursor).bind_congr fun position hposition => ?_
    cases position with
    | scanning next => exact ih hposition
    | stopped last => rfl

end Arithmetic.Exact

/-! ## Runs -/

/-- Two programs run alike from a state. -/
structure RunsLike {I : Interface} {ε α σ : Type} (answer : Program.Answering I σ)
    (p q : Program I ε α) (s : σ) : Prop where
  run : p.run answer s = q.run answer s
  calls : p.calls answer s = q.calls answer s
  moments : p.moments answer s = q.moments answer s

theorem RunsLike.of_eq {I : Interface} {ε α σ : Type} {answer : Program.Answering I σ}
    {p q : Program I ε α} {s : σ} (h : p = q) : RunsLike answer p q s := by
  subst h
  exact ⟨rfl, rfl, rfl⟩

/-- Programs that go on in the same way after a reply run alike if it is the reply that they get. -/
theorem RunsLike.ask {I : Interface} {ε α σ : Type} {answer : Program.Answering I σ}
    {request : I.Request} {next next' : I.Reply request → Program I ε α} {s : σ}
    (h : next (answer request s).1 = next' (answer request s).1) :
    RunsLike answer (.ask request next) (.ask request next') s := by
  constructor
  · simp only [Program.run, h]
  · simp only [Program.calls, h]
  · simp only [Program.moments, h]

/-- The checkpoint can be read, and is not the greatest word. -/
def Situation.Resumable (s : Situation ω) : Prop :=
  ∃ n, Checkpoint.stored s.memory = .ok n ∧ n < word64Max

section

variable {env : Surroundings ω} {s : Situation ω}

theorem Situation.Resumable.answer (h : s.Resumable) {request : Request}
    (hrequest : request.MovesOn) : (env.answer request s).2.Resumable := by
  obtain ⟨n, hn, hlt⟩ := h
  cases request with
  | store request =>
    obtain ⟨detail, world, hstore⟩ | ⟨world, hstore⟩ := env.answer_store_cases request s
    · rw [hstore]
      exact ⟨n, hn, hlt⟩
    rw [hstore]
    cases request with
    | putConfig name value =>
      obtain ⟨rfl, n', hlt', rfl⟩ := hrequest name value rfl
      exact ⟨n', Checkpoint.stored_putConfig _ (Nat.le_of_lt hlt'), hlt'⟩
    | _ => exact ⟨n, (Checkpoint.stored_congr (Checkpoint.answer_configs _ rfl)).trans hn, hlt⟩
  | node | cache | cancelled => exact ⟨n, hn, hlt⟩

/-- What goes on from the checkpoint runs on with a number that has a next one. -/
theorem last_bind_runsLike {α : Type} {f g : Nat → Procedure α} (hs : s.Resumable)
    (hfg : ∀ n, n < word64Max → f n = g n) :
    RunsLike env.answer (Checkpoint.last.bind f) (Checkpoint.last.bind g) s := by
  refine RunsLike.ask ?_
  obtain ⟨detail, world, hstore⟩ | ⟨world, hstore⟩ :=
    env.answer_store_cases (.config Checkpoint.key) s
  · rw [hstore]
    rfl
  rw [hstore]
  obtain ⟨n, hn, hlt⟩ := hs
  unfold Checkpoint.stored at hn
  show (Program.bind (.done (s.memory.configs.lookup Checkpoint.key)) _).bind f =
    (Program.bind (.done (s.memory.configs.lookup Checkpoint.key)) _).bind g
  cases hvalue : s.memory.configs.lookup Checkpoint.key with
  | none => exact hfg 0 (by decide)
  | some value =>
    rw [hvalue] at hn
    have hread : Checkpoint.ofText value = .ok n := hn
    show (Program.ofExcept (Checkpoint.ofText value)).bind f =
      (Program.ofExcept (Checkpoint.ofText value)).bind g
    rw [hread]
    exact hfg n hlt

variable {A : Arithmetic}

/-- From such a checkpoint, or from a word, a run counts exactly. -/
theorem launch_runsLike (hA : A.Exact) (hs : s.Resumable) (setup : Setup)
    (hinterval : setup.interval ≤ word64Max) {start : Option Nat}
    (hstart : ∀ n ∈ start, n ≤ word64Max) (rounds : Nat) :
    RunsLike env.answer (A.launch setup start rounds) (launch setup start rounds) s := by
  cases start with
  | some n => exact .of_eq (hA.scan_eq hinterval rounds (hstart n rfl))
  | none =>
    have hruns : RunsLike env.answer
        (Checkpoint.last.bind fun n => (A.next n).bind (A.scan setup rounds))
        (Checkpoint.last.bind fun n => scan setup rounds (n.succ % (word64Max + 1))) s :=
      last_bind_runsLike hs fun n hn => by
        rw [hA.next n hn, Nat.mod_eq_of_lt (Nat.succ_lt_succ hn)]
        exact hA.scan_eq hinterval rounds hn
    have hcounted : A.launch setup none rounds =
        Checkpoint.last.bind fun n => (A.next n).bind (A.scan setup rounds) :=
      Program.bind_assoc _ _ _
    have hlaunched : launch setup none rounds =
        Checkpoint.last.bind fun n => scan setup rounds (n.succ % (word64Max + 1)) :=
      Program.bind_assoc _ _ _
    rwa [hcounted, hlaunched]

/-- What can become of a store whose checkpoint, if there is one, was written by scanners that count
with an arithmetic. Their runs start at words or from the checkpoint, and may be cut short at any of
their moments. Between them anything may change but the checkpoint. -/
inductive Arithmetic.Served (A : Arithmetic) (env : Surroundings ω) : Situation ω → Prop where
  | fresh {s : Situation ω} (none : s.checkpoint = none) : Served A env s
  | other {s s' : Situation ω} (before : Served A env s) (same : s'.checkpoint = s.checkpoint) :
      Served A env s'
  | run {s s' : Situation ω} {interval : Nat} {start : Option Nat} (caller : String)
      (rounds : Nat) (before : Served A env s) (interval_le : interval ≤ word64Max)
      (start_le : ∀ n ∈ start, n ≤ word64Max)
      (moment : s' ∈ (A.launch ⟨interval, Observer.standard caller⟩ start rounds).moments
        env.answer s) : Served A env s'

theorem Arithmetic.Served.resumable (h : A.Served env s) (hA : A.Exact) : s.Resumable := by
  induction h with
  | fresh hnone =>
    unfold Situation.checkpoint at hnone
    refine ⟨0, ?_, by decide⟩
    unfold Checkpoint.stored
    rw [hnone]
  | other _ hsame ih =>
    obtain ⟨n, hn, hlt⟩ := ih
    unfold Situation.checkpoint at hsame
    refine ⟨n, ?_, hlt⟩
    unfold Checkpoint.stored at hn ⊢
    rwa [hsame]
  | @run s s' interval start caller rounds _ hinterval hstart hmoment ih =>
    rw [(launch_runsLike hA ih _ hinterval hstart rounds).moments] at hmoment
    have hkeeps := (launch_movesOn interval caller hstart rounds).ensures env.answer
      (M := Situation.Resumable) (fun _ _ hrequest hs => hs.answer hrequest) ih
    exact (Program.ensures_iff.1 hkeeps).1 _ hmoment

/-- However a scanner counts where a result is no word: it runs as if numbers had no bound. Whatever
runs there were before, and wherever it starts, no result that it comes to is beyond a word, and
nothing is divided by zero. And whatever it enters that has the number of a block, it has the number
that was asked for, or the one that the node has given with a receipt, and fits its column. -/
theorem counts_exactly_in_words (env : Surroundings ω) (hA : A.Exact) (h : A.Served env s)
    {interval : Nat} (hinterval : interval ≤ word64Max) {start : Option Nat}
    (hstart : ∀ n ∈ start, n ≤ word64Max) (caller : String) (rounds : Nat) :
    RunsLike env.answer (A.launch ⟨interval, Observer.standard caller⟩ start rounds)
        (launch ⟨interval, Observer.standard caller⟩ start rounds) s ∧
      NumbersAsked ((A.launch ⟨interval, Observer.standard caller⟩ start rounds).calls
        env.answer s) := by
  have hruns : RunsLike env.answer
      (A.launch ⟨interval, Observer.standard caller⟩ start rounds)
      (launch ⟨interval, Observer.standard caller⟩ start rounds) s :=
    launch_runsLike hA (h.resumable hA) _ hinterval hstart rounds
  refine ⟨hruns, ?_⟩
  rw [hruns.calls]
  exact launch_numbersAsked env interval caller start rounds s

end

/-- A trapping scanner that is sent to the greatest word, where there is no block. -/
def greatestAsked : Procedure Position :=
  Arithmetic.trapping.launch ⟨0, Observer.standard "caller"⟩ (some word64Max) 1

/-- It leaves the checkpoint before. -/
def greatestLeft : Situation Unit :=
  (Program.run besideAwkward.answer greatestAsked ⟨(), Memory.empty, Cache.empty⟩).2

/-- The next run goes on from there, at the greatest word again. -/
theorem counts_exactly_at_greatest_word :
    let setup : Setup := ⟨0, Observer.standard "caller"⟩
    greatestLeft.checkpoint = some "18446744073709551614" ∧
      RunsLike besideAwkward.answer (Arithmetic.trapping.launch setup none 1)
        (launch setup none 1) greatestLeft ∧
      NumbersAsked ((Arithmetic.trapping.launch setup none 1).calls besideAwkward.answer
        greatestLeft) ∧
      (Program.run besideAwkward.answer (Arithmetic.trapping.launch setup none 1)
        greatestLeft).1.toOption = some (.scanning word64Max) := by
  have hfresh : Arithmetic.trapping.Served besideAwkward ⟨(), Memory.empty, Cache.empty⟩ :=
    .fresh rfl
  have hstart : ∀ n ∈ some word64Max, n ≤ word64Max := fun n hn => (Option.some.inj hn).ge
  have hmoment : greatestLeft ∈ Program.moments besideAwkward.answer greatestAsked
      ⟨(), Memory.empty, Cache.empty⟩ := Program.run_mem_moments
  have hserved : Arithmetic.trapping.Served besideAwkward greatestLeft :=
    .run "caller" 1 hfresh (Nat.zero_le _) hstart hmoment
  have hnone : ∀ n ∈ (none : Option Nat), n ≤ word64Max := nofun
  obtain ⟨hruns, hnumbers⟩ := counts_exactly_in_words besideAwkward Arithmetic.trapping_exact
    hserved (Nat.zero_le _) hnone "caller" 1
  refine ⟨by decide +kernel, hruns, hnumbers, ?_⟩
  rw [hruns.run]
  decide +kernel

end ChainIndex.Scan
