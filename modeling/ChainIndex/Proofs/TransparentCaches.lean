import ChainIndex.Proofs.Anatomy
import ChainIndex.Proofs.StoreCalls
import ChainIndex.Proofs.TwoRuns
import Mathlib.Logic.Function.Basic

/-!
# Remembering makes no difference

Whoever keeps the wide tables remembers the columns of those it has seen, and whoever follows tokens
remembers the contracts that it has found to be tokens. A store never takes back either, so that
what is remembered stays so, whatever others do to the store: every reply and every record is the
one that someone who remembers nothing would come to. What remembering saves is the second question
for the columns of a table.
-/

namespace ChainIndex

open Store (Memory)

/-! ## What was asked does not matter -/

namespace Store

namespace Memory

/-- A store with another count of questions for columns. -/
def counting (m : Memory) (n : Nat) : Memory := { m with columnQueries := n }

/-- All is the same but how often columns were asked for. -/
def SameButQueries (m m' : Memory) : Prop := ∃ n, m' = m.counting n

theorem written_counting {m : Memory} {n : Nat} {r r' : Except Error Memory}
    (h : r' = r.map (·.counting n)) :
    (m.counting n).written r' = ((m.written r).1, (m.written r).2.counting n) := by
  subst h
  cases r <;> rfl

/-- A write under a condition does the same in another store. -/
theorem map_guard {c : Prop} [Decidable c] (f : Memory → Memory) (e : Error) (m : Memory) :
    (if c then .error e else .ok m : Except Error Memory).map f =
      if c then .error e else .ok (f m) := by
  split <;> rfl

/-- How often columns were asked for decides no reply. -/
theorem answer_counting (request : Request) (m : Memory) (n : Nat) :
    ∃ n', answer request (m.counting n) =
      ((answer request m).1, (answer request m).2.counting n') := by
  cases request with
  | columns => exact ⟨n + 1, rfl⟩
  | addBlock | addTransaction | addOperation | addReceipt | addAccount | addToken | addTransfer =>
    refine ⟨n, written_counting ?_⟩
    simp only [addBlock, addTransaction, addOperation, addReceipt, addAccount, addToken,
      addTransfer, map_guard]
    rfl
  | addRow name row =>
    refine ⟨n, written_counting ?_⟩
    have htable : (m.counting n).table? name = m.table? name := rfl
    have hfailing : (m.counting n).failing = m.failing := rfl
    rw [addRow, addRow, htable, hfailing]
    by_cases hfails : m.failing.contains name
    · rw [if_pos hfails, if_pos hfails]
      rfl
    · rw [if_neg hfails, if_neg hfails]
      cases m.table? name with
      | none => rfl
      | some t =>
        dsimp only
        cases row.find? fun cell => !t.columns.any (·.name == cell.1) <;> rfl
  | addTable name columns index =>
    have hadd : (m.counting n).addTable name columns index =
        (m.addTable name columns index).counting n := by
      show (if (m.table? name).isSome then m.counting n else _) = _
      unfold addTable
      split <;> rfl
    exact ⟨n, congrArg (Prod.mk _) hadd⟩
  | addAsset asset =>
    have hadd : (m.counting n).addAsset asset = (m.addAsset asset).counting n := by
      show (if m.assets.any (·.id == asset.id) then m.counting n else _) = _
      unfold addAsset
      split <;> rfl
    exact ⟨n, congrArg (Prod.mk _) hadd⟩
  | hasRow name =>
    refine ⟨n, ?_⟩
    have htable : (m.counting n).table? name = m.table? name := rfl
    simp only [answer, htable]
    split <;> rfl
  -- the other requests decide nothing
  | _ => exact ⟨n, rfl⟩

variable {m m' : Memory}

theorem SameButQueries.counting (h : m.SameButQueries m') (n : Nat) :
    m.SameButQueries (m'.counting n) := by
  obtain ⟨n', rfl⟩ := h
  exact ⟨n, rfl⟩

theorem SameButQueries.answer (h : m.SameButQueries m') (request : Request) :
    (Memory.answer request m').1 = (Memory.answer request m).1 ∧
      (Memory.answer request m).2.SameButQueries (Memory.answer request m').2 := by
  obtain ⟨n, rfl⟩ := h
  obtain ⟨n', hanswer⟩ := answer_counting request m n
  rw [hanswer]
  exact ⟨rfl, n', rfl⟩

end Memory

/-- The kind of reply that a call gets. -/
@[reducible] def Call.Result : Call → Type
  | .request asked => Except Error asked.Result
  | .failInserts _ => Unit

/-- The reply to a call, and the store after it. -/
def Call.answer : (call : Call) → Memory → call.Result × Memory
  | .request asked, m => Memory.answer asked m
  | .failInserts table, m => ((), m.failInserts table)

theorem Call.answer_grows (call : Call) (m : Memory) : m.Grows (call.answer m).2 := by
  cases call with
  | request request => exact Memory.answer_grows request m
  | failInserts table => exact (Memory.failInserts_retains table).grows

theorem Memory.SameButQueries.call {m m' : Memory} (h : m.SameButQueries m') (call : Call) :
    (call.answer m').1 = (call.answer m).1 ∧
      (call.answer m).2.SameButQueries (call.answer m').2 := by
  cases call with
  | request request => exact h.answer request
  | failInserts table =>
    obtain ⟨n, rfl⟩ := h
    exact ⟨rfl, n, rfl⟩

end Store

namespace Scan

open Program (Agree agree_ask agree_decode agree_done agree_fail)

/-! ## One procedure with and without a memory -/

/-- A store for someone who remembers nothing. -/
def forgetful (answers : Answers) : Side Memory where
  store := Memory.answer
  node request m := (answers request, m)
  cache request m := (Cache.forget request, m)
  cancelled _ := false

/-- Read the columns of a table that is there, and remember them. -/
def readColumns (typeName : String) : Procedure (List Column) := do
  let found ← store (.columns (WideTable.name typeName))
  cache (.keepColumns (WideTable.name typeName) found)
  pure found

/-- Find out the columns of a table that are not remembered. -/
def askColumns (typeName : String) (sample : Payload) : Procedure (List Column) := do
  let table := WideTable.name typeName
  if ← store (.hasTable table) then pure ()
  else store (.addTable table (WideTable.columnsOf sample) (WideTable.index table))
  readColumns typeName

/-- Find out whether a contract is a token that is not remembered. -/
def askToken (contract : String) : Procedure Bool := do
  if (← store (.token contract)).isSome then
    cache (.keepToken contract)
    pure true
  else pure false

theorem columns_eq (typeName : String) (sample : Payload) :
    WideTable.columns typeName sample =
      .ask (Request.cache (.columns (WideTable.name typeName)) : interface.Request)
        fun (known : Option (List Column)) => known.elim (askColumns typeName sample) .done := by
  unfold WideTable.columns
  refine congrArg (Program.ask _) (funext fun (known : Option (List Column)) => ?_)
  cases known <;> rfl

theorem isKnown_eq (contract : String) :
    Observer.isKnown contract =
      .ask (Request.cache (.token contract) : interface.Request)
        fun (known : Bool) => if known then .done true else askToken contract :=
  rfl

/-- What is remembered of a store is so. -/
structure Cache.Faithful (cache : Cache) (m : Memory) : Prop where
  columns : ∀ table known, cache.columns.lookup table = some known →
    ∃ t, m.table? table = some t ∧ t.columns = known
  tokens : ∀ contract ∈ cache.tokens, (m.token? contract).isSome

theorem Cache.faithful_empty (m : Memory) : Cache.empty.Faithful m where
  columns _ _ h := by cases h
  tokens _ h := by cases h

/-- What is remembered stays so. -/
theorem Cache.Faithful.mono {cache : Cache} {m m' : Memory} (h : cache.Faithful m)
    (hgrows : m.Grows m') : cache.Faithful m' where
  columns table known hknown := by
    obtain ⟨t, ht, hcolumns⟩ := h.columns table known hknown
    obtain ⟨t', ht', hcolumns', -⟩ := hgrows.table table t ht
    exact ⟨t', ht', hcolumns'.trans hcolumns⟩
  tokens contract hcontract := hgrows.token contract (h.tokens contract hcontract)

/-- Someone with a memory and someone without have the same store. -/
structure Alike (s : Situation Unit) (m : Memory) : Prop where
  faithful : s.cache.Faithful s.memory
  memory : s.memory.SameButQueries m

/-- A procedure comes to the same with a memory and without. -/
abbrev Transparent {α : Type} (answers : Answers) (p q : Procedure α) (s : Situation Unit)
    (m : Memory) : Prop :=
  Agree (Surroundings.steady answers).answer (forgetful answers).answering Alike p q s m

section

variable {α : Type} {answers : Answers} {s : Situation Unit} {m : Memory}

/-- What the store is asked, it replies to both. -/
theorem transparent_store (h : Alike s m) {request : Store.Request}
    {f f' : request.Result → Procedure α}
    (hf : ∀ v m', (Memory.answer request s.memory).1 = .ok v →
      Alike ⟨(), (Memory.answer request s.memory).2, s.cache⟩ m' →
        Transparent answers (f v) (f' v) ⟨(), (Memory.answer request s.memory).2, s.cache⟩ m') :
    Transparent answers ((store request).bind f) ((store request).bind f') s m := by
  obtain ⟨hreply, hsame⟩ := h.memory.answer request
  have halike : Alike ⟨(), (Memory.answer request s.memory).2, s.cache⟩
      (Memory.answer request m).2 :=
    ⟨h.faithful.mono (Memory.answer_grows request s.memory), hsame⟩
  exact agree_ask hreply.symm (agree_decode halike fun v hv => hf v _ hv halike)

/-- What is read in a store is the same in one that has counted otherwise. -/
theorem Alike.table?_eq (h : Alike s m) : m.table? = s.memory.table? := by
  obtain ⟨n, rfl⟩ := h.memory
  rfl

theorem Alike.token?_eq (h : Alike s m) : m.token? = s.memory.token? := by
  obtain ⟨n, rfl⟩ := h.memory
  rfl

/-- Columns that are found may be remembered. -/
theorem Alike.keepColumns (h : Alike s m) {table : String} {t : Store.Table}
    (ht : s.memory.table? table = some t) :
    Alike ⟨(), s.memory, (Cache.answer (.keepColumns table t.columns) s.cache).2⟩ m := by
  refine ⟨⟨fun other known hknown => ?_, h.faithful.tokens⟩, h.memory⟩
  by_cases hother : other = table
  · subst hother
    cases (Store.Memory.lookup_putEntry_self _ _ _).symm.trans hknown
    exact ⟨t, ht, rfl⟩
  · exact h.faithful.columns other known
      ((Store.Memory.lookup_putEntry_of_ne _ _ hother).symm.trans hknown)

/-- A token that is found may be remembered. -/
theorem Alike.keepToken (h : Alike s m) {contract : String}
    (hstored : (s.memory.token? contract).isSome) :
    Alike ⟨(), s.memory, (Cache.answer (.keepToken contract) s.cache).2⟩ m :=
  ⟨⟨h.faithful.columns, List.forall_mem_cons.2 ⟨hstored, h.faithful.tokens⟩⟩, h.memory⟩

/-- Columns that are asked for are those of the table that was there, or that was made. -/
theorem askColumns_transparent (h : Alike s m) (typeName : String) (sample : Payload) :
    Transparent answers (askColumns typeName sample) (askColumns typeName sample) s m := by
  have hread : ∀ {m₁ m₂ : Memory} {t : Store.Table}, Alike ⟨(), m₁, s.cache⟩ m₂ →
      m₁.table? (WideTable.name typeName) = some t →
      Transparent answers (readColumns typeName) (readColumns typeName) ⟨(), m₁, s.cache⟩ m₂ := by
    intro m₁ m₂ t halike ht
    refine transparent_store halike fun v m₃ hv halike' => ?_
    have hcolumns : v = t.columns := by
      simp only [Memory.answer, ht] at hv
      exact (Except.ok.inj hv).symm
    subst hcolumns
    exact ⟨rfl, halike'.keepColumns ht⟩
  refine transparent_store h fun there m' hthere h' => ?_
  cases hthere
  -- a table that is not there is made, and then it is read like one that is
  cases htable : s.memory.table? (WideTable.name typeName) with
  | some t => exact hread h' htable
  | none =>
    refine transparent_store h' fun _ m'' _ h'' => ?_
    obtain ⟨t, ht⟩ := Option.isSome_iff_exists.1 (Store.Memory.table?_addTable s.memory _ _ _)
    exact hread h'' ht

/-- The columns of a table are those that are remembered, or else they are asked for. -/
theorem columns_transparent (h : Alike s m) (typeName : String) (sample : Payload) :
    Transparent answers (WideTable.columns typeName sample) (WideTable.columns typeName sample)
      s m := by
  rw [columns_eq]
  show Transparent answers
    ((s.cache.columns.lookup (WideTable.name typeName)).elim (askColumns typeName sample) .done)
    (askColumns typeName sample) s m
  cases hknown : s.cache.columns.lookup (WideTable.name typeName) with
  | none => exact askColumns_transparent h typeName sample
  | some known =>
    -- the other side finds the table, and the columns that are remembered here
    obtain ⟨t, ht, rfl⟩ := h.faithful.columns _ _ hknown
    rw [← h.table?_eq] at ht
    have hrun : Program.run (forgetful answers).answering (askColumns typeName sample) m =
        (.ok t.columns, m.counting (m.columnQueries + 1)) := by
      show Program.run _ ((Program.ofExcept (.ok (m.table? _).isSome)).bind _) m = _
      rw [ht]
      show Program.run _ ((Program.ofExcept (.ok (((m.table? _).map _).getD []))).bind _) _ = _
      rw [ht]
      rfl
    show _ = (Program.run _ _ _).1 ∧ Alike _ (Program.run _ _ _).2
    rw [hrun]
    exact ⟨rfl, h.faithful, h.memory.counting _⟩

theorem ensure_transparent (h : Alike s m) (typeName : String) (sample : Payload) :
    Transparent answers (WideTable.ensure typeName sample) (WideTable.ensure typeName sample)
      s m :=
  (columns_transparent h typeName sample).bind fun _ _ _ h' => agree_done h'

theorem lacksRow_transparent (h : Alike s m) (typeName transaction : String) (index : Nat) :
    Transparent answers (WideTable.lacksRow typeName transaction index)
      (WideTable.lacksRow typeName transaction index) s m :=
  transparent_store h fun _ _ _ h' => agree_done h'

theorem addRow_transparent (h : Alike s m) (typeName : String) (p : Payload) :
    Transparent answers (WideTable.addRow typeName p) (WideTable.addRow typeName p) s m := by
  refine (columns_transparent h typeName p).bind fun known s' m' h' => ?_
  rw [← Program.bind_done (store _)]
  exact transparent_store h' fun _ _ _ h'' => agree_done h''

/-- A token that is asked for is remembered if it is found. -/
theorem askToken_transparent (h : Alike s m) (contract : String) :
    Transparent answers (askToken contract) (askToken contract) s m := by
  refine transparent_store h fun found m' hfound h' => ?_
  cases hfound
  by_cases hstored : (s.memory.token? contract).isSome
  · rw [if_pos hstored]
    exact ⟨rfl, h'.keepToken hstored⟩
  · rw [if_neg hstored]
    exact agree_done h'

/-- Without a memory, a contract is a token if it is in the store. -/
theorem run_askToken_forgetful (contract : String) (m : Memory) :
    Program.run (forgetful answers).answering (askToken contract) m =
      (.ok (m.token? contract).isSome, m) := by
  show Program.run _ (if (m.token? contract).isSome then _ else _) m = _
  cases (m.token? contract).isSome <;> rfl

theorem isKnown_transparent (h : Alike s m) (contract : String) :
    Transparent answers (Observer.isKnown contract) (Observer.isKnown contract) s m := by
  rw [isKnown_eq]
  show Transparent answers (if s.cache.tokens.contains contract then .done true else _)
    (askToken contract) s m
  by_cases hknown : s.cache.tokens.contains contract
  · rw [if_pos hknown]
    have hstored := h.faithful.tokens contract (List.contains_iff_mem.1 hknown)
    rw [← h.token?_eq] at hstored
    show _ = (Program.run _ _ _).1 ∧ Alike _ (Program.run _ _ _).2
    rw [run_askToken_forgetful, hstored]
    exact ⟨rfl, h⟩
  · rw [if_neg hknown]
    exact askToken_transparent h contract

end

/-! ## How often columns are asked for -/

/-- Whether a request asks for the columns of a table. -/
def Request.asksColumns (table : String) : Request → Bool
  | .store (.columns other) => other == table
  | _ => false

/-- How often a procedure asks for the columns of a table. -/
def queries (answers : Answers) (table : String) {α : Type} (p : Procedure α)
    (s : Situation Unit) : Nat :=
  (Program.calls (Surroundings.steady answers).answer p s).countP fun call =>
    Request.asksColumns table call.request

/-- One if the columns of a table are remembered, and zero if they are not. -/
def Cache.seen (cache : Cache) (table : String) : Nat :=
  if (cache.columns.lookup table).isSome then 1 else 0

/-- A procedure asks for the columns of a table only to remember them from then on. -/
def Frugal (answers : Answers) (table : String) {α : Type} (p : Procedure α)
    (s : Situation Unit) : Prop :=
  queries answers table p s + s.cache.seen table ≤
    (Program.run (Surroundings.steady answers).answer p s).2.cache.seen table

section

variable {α β : Type} {answers : Answers} {table : String} {s : Situation Unit}

theorem frugal_done (a : α) : Frugal answers table (.done a) s :=
  Nat.le_of_eq (Nat.zero_add _)

theorem frugal_fail (e : Error) : Frugal answers table (.fail e : Procedure α) s :=
  Nat.le_of_eq (Nat.zero_add _)

theorem frugal_ofExcept (r : Except Error α) : Frugal answers table (Program.ofExcept r) s := by
  cases r with
  | ok a => exact frugal_done a
  | error e => exact frugal_fail e

/-- A question for something else changes nothing, unless columns are forgotten. -/
theorem frugal_ask (request : Request) {next : request.Reply → Procedure α}
    (hasks : request.asksColumns table = false)
    (hseen : s.cache.seen table ≤
      ((Surroundings.steady answers).answer request s).2.cache.seen table)
    (hnext : Frugal answers table (next ((Surroundings.steady answers).answer request s).1)
      ((Surroundings.steady answers).answer request s).2) :
    Frugal answers table (.ask (request : interface.Request) next) s := by
  have hcount : queries answers table (.ask (request : interface.Request) next) s =
      queries answers table (next ((Surroundings.steady answers).answer request s).1)
        ((Surroundings.steady answers).answer request s).2 :=
    List.countP_cons_of_neg (by simpa using hasks)
  unfold Frugal at hnext ⊢
  rw [hcount]
  exact Nat.le_trans (Nat.add_le_add_left hseen _) hnext

theorem Frugal.bind {p : Procedure α} {f : α → Procedure β} (hp : Frugal answers table p s)
    (hf : ∀ a s', Frugal answers table (f a) s') : Frugal answers table (p.bind f) s := by
  unfold Frugal queries at hp ⊢
  rw [Program.run_bind, Program.calls_bind, List.countP_append]
  revert hp
  cases Program.run (Surroundings.steady answers).answer p s with
  | mk r s' =>
    intro hp
    cases r with
    | error e => exact hp
    | ok a =>
      have hrest : _ ≤ _ := hf a s'
      unfold queries at hrest
      dsimp only at hp ⊢
      omega

/-- Columns that are read are remembered. -/
theorem readColumns_frugal (typeName : String)
    (hunknown : s.cache.columns.lookup (WideTable.name typeName) = none) :
    Frugal answers table (readColumns typeName) s := by
  have hqueries : queries answers table (readColumns typeName) s =
      if WideTable.name typeName = table then 1 else 0 := by
    show List.countP _ [_, _] = _
    by_cases hname : WideTable.name typeName = table
    · simp [Request.asksColumns, hname]
    · simp [Request.asksColumns, hname]
  obtain ⟨found, hcache⟩ : ∃ found,
      (Program.run (Surroundings.steady answers).answer (readColumns typeName) s).2.cache =
        (Cache.answer (.keepColumns (WideTable.name typeName) found) s.cache).2 := ⟨_, rfl⟩
  unfold Frugal
  -- the one question is paid for by what is remembered instead of nothing
  rw [hqueries, hcache, Cache.seen, Cache.seen]
  by_cases hname : WideTable.name typeName = table
  · subst hname
    rw [hunknown, if_pos rfl]
    show _ ≤ if (List.lookup _ (Store.Memory.putEntry _ _ _)).isSome then 1 else 0
    rw [Store.Memory.lookup_putEntry_self]
    exact Nat.le_refl _
  · rw [if_neg hname]
    refine Nat.le_of_eq ?_
    show _ = if (List.lookup _ (Store.Memory.putEntry _ _ _)).isSome then 1 else 0
    rw [Store.Memory.lookup_putEntry_of_ne _ _ (Ne.symm hname), Nat.zero_add]

theorem columns_frugal (typeName : String) (sample : Payload) :
    Frugal answers table (WideTable.columns typeName sample) s := by
  rw [columns_eq]
  refine frugal_ask _ rfl (Nat.le_refl _) ?_
  show Frugal answers table
    ((s.cache.columns.lookup (WideTable.name typeName)).elim (askColumns typeName sample) .done) s
  cases hknown : s.cache.columns.lookup (WideTable.name typeName) with
  | some known => exact frugal_done known
  | none =>
    refine frugal_ask (.store (.hasTable _)) rfl (Nat.le_refl _) ?_
    show Frugal answers table
      (if (s.memory.table? (WideTable.name typeName)).isSome then _ else _) _
    split
    · exact readColumns_frugal typeName hknown
    · exact frugal_ask (.store (.addTable _ _ _)) rfl (Nat.le_refl _)
        (readColumns_frugal typeName hknown)

theorem isKnown_frugal (contract : String) :
    Frugal answers table (Observer.isKnown contract) s := by
  rw [isKnown_eq]
  refine frugal_ask _ rfl (Nat.le_refl _) ?_
  show Frugal answers table (if s.cache.tokens.contains contract then _ else askToken contract) s
  split
  · exact frugal_done true
  · refine frugal_ask (.store (.token _)) rfl (Nat.le_refl _) ?_
    show Frugal answers table (if (s.memory.token? contract).isSome then _ else _) _
    split
    · exact frugal_ask (.cache (.keepToken _)) rfl (Nat.le_refl _) (frugal_done true)
    · exact frugal_done false

end

/-! ## Sessions -/

/-- What those ask who remember parts of a store. -/
inductive Task where
  | ensure (typeName : String) (sample : Payload)
  | lacksRow (typeName transaction : String) (index : Nat)
  | addRow (typeName : String) (p : Payload)
  | isKnown (contract : String)

/-- The kind of value that a task comes to. -/
@[reducible] def Task.Result : Task → Type
  | .ensure _ _ => String
  | .lacksRow _ _ _ => Bool
  | .addRow _ _ => Unit
  | .isKnown _ => Bool

/-- How a task is done. -/
def Task.procedure : (task : Task) → Procedure task.Result
  | .ensure typeName sample => WideTable.ensure typeName sample
  | .lacksRow typeName transaction index => WideTable.lacksRow typeName transaction index
  | .addRow typeName p => WideTable.addRow typeName p
  | .isKnown contract => Observer.isKnown contract

/-- What happens to a store. -/
inductive Occurrence where
  /-- One of those who remember parts of the store has something to do. -/
  | task (k : Nat) (task : Task)
  /-- Others use the store. -/
  | others (call : Store.Call)
  /-- A fresh one takes the place of one who remembered something. -/
  | renew (k : Nat)

namespace Occurrence

/-- What can be seen of an occurrence. -/
@[reducible] def Result : Occurrence → Type
  | .task _ asked => Except Error asked.Result
  | .others call => call.Result
  | .renew _ => Unit

end Occurrence

/-- A store, and what is remembered of it. -/
structure Holders where
  memory : Memory
  caches : Nat → Cache

/-- A store with those who have just started on it. -/
def Holders.fresh (m : Memory) : Holders := ⟨m, fun _ => Cache.empty⟩

namespace Occurrence

/-- What an occurrence comes to where parts of the store are remembered. -/
def remembering (answers : Answers) : (x : Occurrence) → Holders → x.Result × Holders
  | .task k asked, h =>
    let (r, s) := Program.run (Surroundings.steady answers).answer asked.procedure
      ⟨(), h.memory, h.caches k⟩
    (r, ⟨s.memory, Function.update h.caches k s.cache⟩)
  | .others call, h => ((call.answer h.memory).1, { h with memory := (call.answer h.memory).2 })
  | .renew k, h => ((), { h with caches := Function.update h.caches k Cache.empty })

/-- What an occurrence comes to where nothing is remembered. -/
def forgetting (answers : Answers) : (x : Occurrence) → Memory → x.Result × Memory
  | .task _ asked, m => Program.run (forgetful answers).answering asked.procedure m
  | .others call, m => call.answer m
  | .renew _, m => ((), m)

/-- What a series of occurrences comes to. -/
def all {σ : Type} (one : (x : Occurrence) → σ → x.Result × σ) :
    List Occurrence → σ → List ((x : Occurrence) × x.Result) × σ
  | [], s => ([], s)
  | x :: rest, s => (⟨x, (one x s).1⟩ :: (all one rest (one x s).2).1, (all one rest (one x s).2).2)

/-- How often someone asks for the columns of a table in an occurrence. -/
def queries (answers : Answers) (k : Nat) (table : String) : Occurrence → Holders → Nat
  | .task j asked, h =>
    if j = k then Scan.queries answers table asked.procedure ⟨(), h.memory, h.caches k⟩ else 0
  | .others _, _ => 0
  | .renew _, _ => 0

/-- How often someone asks for the columns of a table in a series of occurrences. -/
def allQueries (answers : Answers) (k : Nat) (table : String) : List Occurrence → Holders → Nat
  | [], _ => 0
  | x :: rest, h =>
    x.queries answers k table h + allQueries answers k table rest (x.remembering answers h).2

end Occurrence

/-- What is remembered is so, and the store is the same as one for those who remember nothing. -/
structure Holders.Alike (h : Holders) (m : Memory) : Prop where
  faithful : ∀ k, (h.caches k).Faithful h.memory
  memory : h.memory.SameButQueries m

/-- Each of them is alike to someone who remembers nothing. -/
theorem Holders.Alike.alike {h : Holders} {m : Memory} (hh : h.Alike m) (k : Nat) :
    Scan.Alike ⟨(), h.memory, h.caches k⟩ m :=
  ⟨hh.faithful k, hh.memory⟩

section

variable (answers : Answers) {h : Holders} {m : Memory}

theorem Task.transparent (task : Task) {s : Situation Unit} (h : Scan.Alike s m) :
    Transparent answers task.procedure task.procedure s m := by
  cases task with
  | ensure typeName sample => exact ensure_transparent h typeName sample
  | lacksRow typeName transaction index => exact lacksRow_transparent h typeName transaction index
  | addRow typeName p => exact addRow_transparent h typeName p
  | isKnown contract => exact isKnown_transparent h contract

theorem Task.frugal (task : Task) (table : String) (s : Situation Unit) :
    Frugal answers table task.procedure s := by
  cases task with
  | ensure typeName sample =>
    exact (columns_frugal typeName sample).bind fun _ _ => frugal_done _
  | lacksRow typeName transaction index =>
    exact frugal_ask (.store (.hasRow _ _ _)) rfl (Nat.le_refl _)
      ((frugal_ofExcept _).bind fun _ _ => frugal_done _)
  | addRow typeName p =>
    exact (columns_frugal typeName p).bind fun _ _ =>
      frugal_ask (.store (.addRow _ _)) rfl (Nat.le_refl _) (frugal_ofExcept _)
  | isKnown contract => exact isKnown_frugal contract

/-- Whatever happens, what can be seen of it is the same where nothing is remembered. -/
theorem Occurrence.step (hh : h.Alike m) (x : Occurrence) :
    (x.remembering answers h).1 = (x.forgetting answers m).1 ∧
      (x.remembering answers h).2.Alike (x.forgetting answers m).2 := by
  cases x with
  | task k asked =>
    obtain ⟨hreply, halike⟩ := asked.transparent answers (hh.alike k)
    -- what the others remember stays so while this one uses the store
    refine ⟨hreply, (Function.forall_update_iff h.caches fun _ cache => cache.Faithful _).2
      ⟨halike.faithful, fun j _ => ?_⟩, halike.memory⟩
    exact (hh.faithful j).mono (run_grows asked.procedure ⟨(), h.memory, h.caches k⟩)
  | others call =>
    obtain ⟨hreply, hsame⟩ := hh.memory.call call
    exact ⟨hreply.symm, fun j => (hh.faithful j).mono (call.answer_grows h.memory), hsame⟩
  | renew k =>
    exact ⟨rfl, (Function.forall_update_iff h.caches fun _ cache => cache.Faithful _).2
      ⟨Cache.faithful_empty _, fun j _ => hh.faithful j⟩, hh.memory⟩

theorem Occurrence.all_alike (hh : h.Alike m) (xs : List Occurrence) :
    (all (remembering answers) xs h).1 = (all (forgetting answers) xs m).1 ∧
      (all (remembering answers) xs h).2.Alike (all (forgetting answers) xs m).2 := by
  induction xs generalizing h m with
  | nil => exact ⟨rfl, hh⟩
  | cons x xs ih =>
    obtain ⟨hreply, hstep⟩ := Occurrence.step answers hh x
    obtain ⟨hrest, hend⟩ := ih hstep
    exact ⟨by rw [all, all, hreply, hrest], hend⟩

/-- Someone who is not renewed asks for the columns of a table only to remember them. -/
theorem Occurrence.queries_le {k : Nat} {table : String} {x : Occurrence} (hx : x ≠ .renew k)
    (h : Holders) :
    x.queries answers k table h + (h.caches k).seen table ≤
      ((x.remembering answers h).2.caches k).seen table := by
  cases x with
  | task j asked =>
    let after := Program.run (Surroundings.steady answers).answer asked.procedure
      ⟨(), h.memory, h.caches j⟩
    show (if j = k then _ else 0) + _ ≤
      Cache.seen (Function.update h.caches j after.2.cache k) table
    by_cases hj : j = k
    · subst hj
      rw [Function.update_self, if_pos rfl]
      exact asked.frugal answers table ⟨(), h.memory, h.caches j⟩
    · refine Nat.le_of_eq ?_
      rw [Function.update_of_ne (Ne.symm hj), if_neg hj, Nat.zero_add]
  | others call => exact Nat.le_of_eq (Nat.zero_add _)
  | renew j =>
    have hj : k ≠ j := fun hj => hx (congrArg renew hj.symm)
    refine Nat.le_of_eq ?_
    show 0 + _ = Cache.seen (Function.update h.caches j Cache.empty k) table
    rw [Function.update_of_ne hj, Nat.zero_add]

theorem Occurrence.allQueries_le {k : Nat} {table : String} {xs : List Occurrence}
    (hrenew : .renew k ∉ xs) (h : Holders) :
    allQueries answers k table xs h + (h.caches k).seen table ≤
      ((all (remembering answers) xs h).2.caches k).seen table := by
  induction xs generalizing h with
  | nil => exact Nat.le_of_eq (Nat.zero_add _)
  | cons x xs ih =>
    obtain ⟨hx, hxs⟩ := not_or.1 fun hmem => hrenew (List.mem_cons.2 hmem)
    have hstep : _ ≤ Cache.seen _ table := queries_le answers (Ne.symm hx) h
    have hrest := ih hxs (x.remembering answers h).2
    rw [allQueries, all]
    dsimp only
    omega

end

/-! ## Main statement -/

/-- Whatever wide tables are made, filled and looked into and whatever contracts are looked up, by
however many who remember what they have seen, by others on the same store, and with fresh ones in
the place of old ones: every reply is the one that somebody would get who remembers nothing and asks
the store each time, and the store comes to hold the same. As long as someone is not renewed, the
columns of a table are asked for at most once; and whether a contract is a token is always said as
the store has it at that moment. -/
theorem remembering_makes_no_difference (answers : Answers) (m : Memory) (xs : List Occurrence) :
    let kept := Occurrence.all (Occurrence.remembering answers) xs (Holders.fresh m)
    let read := Occurrence.all (Occurrence.forgetting answers) xs m
    kept.1 = read.1 ∧ kept.2.memory.SameButQueries read.2 ∧
      (∀ k table life, .renew k ∉ life → Occurrence.allQueries answers k table life kept.2 ≤ 1) ∧
      ∀ k contract, ((Occurrence.task k (.isKnown contract)).remembering answers kept.2).1 =
        .ok (kept.2.memory.token? contract).isSome := by
  have hfresh : (Holders.fresh m).Alike m := ⟨fun _ => Cache.faithful_empty m, m.columnQueries, rfl⟩
  obtain ⟨hreplies, hend⟩ := Occurrence.all_alike answers hfresh xs
  refine ⟨hreplies, hend.memory, fun k table life hlife => ?_, fun k contract => ?_⟩
  · have hle : _ ≤ Cache.seen _ table := Occurrence.allQueries_le answers hlife
      (Occurrence.all (Occurrence.remembering answers) xs (Holders.fresh m)).2
    have hseen : ∀ cache : Cache, cache.seen table ≤ 1 := by
      intro cache
      unfold Cache.seen
      split
      · exact Nat.le_refl 1
      · exact Nat.zero_le 1
    exact Nat.le_trans (Nat.le_trans (Nat.le_add_right _ _) hle) (hseen _)
  · rw [(Occurrence.step answers hend (.task k (.isKnown contract))).1]
    show (Program.run _ (askToken contract) _).1 = _
    rw [run_askToken_forgetful, (hend.alike k).token?_eq]

/-- Somebody makes a table and is renewed, and others would make it with another column. -/
def founding : List Occurrence :=
  [.task 0 (.ensure "pay_operation" (.ofMembers [("n", .int 1)])), .renew 0,
    .others (.request (.addTable "op_pay" [⟨"m", .text⟩] ⟨"other", []⟩))]

/-- Payloads of two types of one table, and an insert that fails. -/
def aliasing : List Occurrence :=
  [.task 0 (.addRow "pay" (.ofMembers [("m", .str "x"), ("n", .str " 2 ")])),
    .others (.failInserts "op_pay"), .task 0 (.addRow "Pay_operation" (.ofMembers [("n", .int 3)])),
    .task 1 (.ensure "PAY" .empty), .task 0 (.lacksRow "pay" "tx" 0)]

theorem aliased_types_are_asked_for_once :
    .renew 0 ∉ aliasing ∧
      Occurrence.allQueries (.lone {} (.other "")) 0 "op_pay" aliasing
        (Occurrence.all (Occurrence.remembering (.lone {} (.other ""))) founding
          (Holders.fresh Memory.empty)).2 ≤ 1 := by
  have hrenew : .renew 0 ∉ aliasing := by simp [aliasing]
  obtain ⟨-, -, honce, -⟩ :=
    remembering_makes_no_difference (.lone {} (.other "")) Memory.empty founding
  exact ⟨hrenew, honce 0 "op_pay" aliasing hrenew⟩

end Scan

end ChainIndex
