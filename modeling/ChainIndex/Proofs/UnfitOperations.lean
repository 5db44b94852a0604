import ChainIndex.Proofs.GuardedWrites
import ChainIndex.Proofs.Steps

/-!
# Operations whose numbers do not fit

An operation gets its row in the table of its type before its record is made for the list of all
operations. So an operation whose numbers do not fit the columns of that list is refused too late:
its row stays behind, and so does the table, if it was not there before.
-/

namespace ChainIndex.Scan

open Store (Memory)
open Store.Memory (isAt putEntry)
open Entry (tableFor)

variable {ω : Type} {env : Surroundings ω} {s : Situation ω}

/-! ## Outcomes for which the store is not to blame -/

/-- From a situation, the outcome of a procedure and how things stand then have `Q`, unless it ends
with a failure of the store. -/
abbrev Yields {α : Type} (env : Surroundings ω) (p : Procedure α)
    (Q : Except Error α → Situation ω → Prop) (s : Situation ω) : Prop :=
  p.Ensures env.answer (fun _ => True)
    (fun r s' => (∃ e, r = .error e ∧ e.isStoreFailure) ∨ Q r s') s

section

variable {α β : Type} {Q : Except Error β → Situation ω → Prop}

/-- A request to the store, and what follows if it is answered. -/
theorem yields_store {request : Store.Request} {f : request.Result → Procedure β}
    (hf : ∀ v m' world, Memory.answer request s.memory = (.ok v, m') →
      Yields env (f v) Q ⟨world, m', s.cache⟩) :
    Yields env ((store request).bind f) Q s := by
  refine ⟨trivial, ?_⟩
  show Program.Ensures env.answer _ _ ((Program.ofExcept (env.answer (.store request) s).1).bind f)
    (env.answer (.store request) s).2
  obtain ⟨detail, world, hfault⟩ | ⟨world, hanswer⟩ := env.answer_store_cases request s
  · rw [hfault]
    exact .inl ⟨_, rfl, rfl⟩
  · rw [hanswer]
    cases hreply : Memory.answer request s.memory with
    | mk reply m' =>
      cases reply with
      | ok v => exact hf v m' world hreply
      | error e => exact .inl ⟨e, rfl, isStoreFailure_of_answer (congrArg Prod.fst hreply)⟩

/-- A sequence, whose first part does not fail if the store does not. -/
theorem Yields.bind {p : Procedure α} {f : α → Procedure β} {Q' : α → Situation ω → Prop}
    (h : Yields env p (fun r s' => ∃ a, r = .ok a ∧ Q' a s') s)
    (hf : ∀ a s', Q' a s' → Yields env (f a) Q s') : Yields env (p.bind f) Q s := by
  refine Program.ensures_bind.2 (Program.Ensures.mono h (fun _ h => h) fun r s' hr => ?_)
  rcases hr with ⟨e, rfl, he⟩ | ⟨a, rfl, ha⟩
  · exact .inl ⟨e, rfl, he⟩
  · exact hf a s' ha

end

/-! ## The row of an operation -/

/-- An operation has a row in the table of its type. -/
def Placed.HasRow (op : Placed) (m : Memory) : Prop :=
  ∃ t, m.table? (WideTable.name op.typeName) = some t ∧
    t.rows.any (isAt op.transaction (WideTable.position op.index))

theorem Placed.hasRow_iff {op : Placed} {m : Memory} :
    op.HasRow m ↔
      (tableFor m op).rows.any (isAt op.transaction (WideTable.position op.index)) := by
  unfold Placed.HasRow tableFor
  cases m.table? (WideTable.name op.typeName) <;> simp

/-- The tables of a store after an operation has got its row, if it had none. Where there is no
table for it, it founds one; columns that are remembered are taken for those of its table. -/
inductive Placed.RowMade (op : Placed) (remembered : Option (List Column)) (m : Memory) :
    List (String × Store.Table) → Prop where
  | kept (there : op.HasRow m) : op.RowMade remembered m m.tables
  | made (lacks : ¬op.HasRow m) :
      op.RowMade remembered m (putEntry (WideTable.name op.typeName)
        { tableFor m op with
          rows := (tableFor m op).rows ++
            [WideTable.row (remembered.getD (tableFor m op).columns) op.payload] } m.tables)

/-- The tables stay as they were only where the operation had its row. -/
theorem Placed.RowMade.tables_eq_iff {op : Placed} {remembered : Option (List Column)} {m : Memory}
    {tables : List (String × Store.Table)} (h : op.RowMade remembered m tables) :
    tables = m.tables ↔ op.HasRow m := by
  cases h with
  | kept there => exact iff_of_true rfl there
  | made lacks =>
    refine iff_of_false (fun hsame => ?_) lacks
    have hfound := congrArg (List.lookup (WideTable.name op.typeName)) hsame
    rw [Store.Memory.lookup_putEntry_self] at hfound
    have htable : tableFor m op = (m.tables.lookup (WideTable.name op.typeName)).getD _ := rfl
    rw [← hfound, Option.getD_some] at htable
    -- the table would have one row more than it has
    have hlength := congrArg (fun t : Store.Table => t.rows.length) htable
    simp at hlength

/-- All but the tables is the same, and how often their columns were asked for. -/
def SameButTables (m m' : Memory) : Prop :=
  m' = { m with tables := m'.tables, columnQueries := m'.columnQueries }

theorem SameButTables.trans {m m' m'' : Memory} (h : SameButTables m m')
    (h' : SameButTables m' m'') : SameButTables m m'' := by
  refine Eq.trans h' ?_
  rw [h]

/-- How things stand when the columns of the table of an operation are known. -/
structure Placed.ColumnsKnown (op : Placed) (s : Situation ω) (known : List Column)
    (s' : Situation ω) : Prop where
  rest : SameButTables s.memory s'.memory
  remembered : s'.cache.columns.lookup (WideTable.name op.typeName) = some known
  /-- They were remembered, or they are those of the table that is there or was founded. -/
  origin : (s.cache.columns.lookup (WideTable.name op.typeName) = some known ∧
      s'.memory.tables = s.memory.tables) ∨
    s.cache.columns.lookup (WideTable.name op.typeName) = none ∧
      known = (tableFor s.memory op).columns ∧
      s'.memory.tables = (s.memory.addTable (WideTable.name op.typeName)
        (WideTable.columnsOf op.payload) (WideTable.index (WideTable.name op.typeName))).tables

namespace Placed.ColumnsKnown

variable {op : Placed} {known : List Column} {s s' : Situation ω} (h : op.ColumnsKnown s known s')
include h

/-- The table of the operation is the one that it would found, if there was none. -/
theorem tableFor_eq : tableFor s'.memory op = tableFor s.memory op := by
  rcases h.origin with ⟨-, htables⟩ | ⟨-, -, htables⟩
  · rw [tableFor, tableFor, Memory.table?, Memory.table?, htables]
  · have hfound := Entry.addTable_tableFor s.memory op
    rw [Memory.table?, ← htables] at hfound
    rw [tableFor, Memory.table?, hfound, Option.getD_some]

theorem putEntry_eq (t : Store.Table) :
    putEntry (WideTable.name op.typeName) t s'.memory.tables =
      putEntry (WideTable.name op.typeName) t s.memory.tables := by
  rcases h.origin with ⟨-, htables⟩ | ⟨-, -, htables⟩
  · rw [htables]
  · rw [htables, Entry.putEntry_addTable]

theorem known_eq :
    (s.cache.columns.lookup (WideTable.name op.typeName)).getD (tableFor s.memory op).columns =
      known := by
  rcases h.origin with ⟨hsome, -⟩ | ⟨hnone, rfl, -⟩
  · rw [hsome, Option.getD_some]
  · rw [hnone, Option.getD_none]

/-- A table that was founded has no rows. -/
theorem kept (hrow : op.HasRow s.memory) : s'.memory.tables = s.memory.tables := by
  rcases h.origin with ⟨-, htables⟩ | ⟨-, -, htables⟩
  · exact htables
  · obtain ⟨t, ht, -⟩ := hrow
    rw [htables, Memory.addTable, if_pos (Option.isSome_iff_exists.2 ⟨t, ht⟩)]

end Placed.ColumnsKnown

theorem columns_yields (s : Situation ω) (op : Placed) :
    Yields env (WideTable.columns op.typeName op.payload)
      (fun r s' => ∃ known, r = .ok known ∧ op.ColumnsKnown s known s') s := by
  unfold WideTable.columns
  refine ⟨trivial, ?_⟩
  show Program.Ensures env.answer _ _ ((Program.done
    (s.cache.columns.lookup (WideTable.name op.typeName)) :
      Procedure (Option (List Column))).bind _) s
  cases hknown : s.cache.columns.lookup (WideTable.name op.typeName) with
  | some known => exact .inr ⟨known, rfl, rfl, hknown, .inl ⟨hknown, rfl⟩⟩
  | none =>
    -- once the table is there, its columns are read and remembered
    have hread : ∀ {s' : Situation ω}, s'.cache = s.cache →
        s'.memory = s.memory.addTable (WideTable.name op.typeName)
          (WideTable.columnsOf op.payload) (WideTable.index (WideTable.name op.typeName)) →
        Yields env ((store (.columns (WideTable.name op.typeName))).bind fun found =>
            (cache (.keepColumns (WideTable.name op.typeName) found)).bind fun _ => .done found)
          (fun r s' => ∃ known, r = .ok known ∧ op.ColumnsKnown s known s') s' := by
      intro s' hcache hmemory
      refine yields_store fun columns m' world hcolumns => ⟨trivial, .inr ?_⟩
      cases hcolumns
      rw [hmemory, Entry.addTable_tableFor]
      refine ⟨_, rfl, ?_, Store.Memory.lookup_putEntry_self _ _ _, .inr ⟨hknown, rfl, rfl⟩⟩
      unfold Memory.addTable
      split <;> rfl
    refine yields_store fun found m' world hfound => ?_
    cases hfound
    cases hthere : (s.memory.table? (WideTable.name op.typeName)).isSome with
    | true => exact hread rfl (if_pos hthere).symm
    | false =>
      refine yields_store fun _ m' world hmade => ?_
      cases hmade
      exact hread rfl rfl

theorem lacksRow_yields (s : Situation ω) (op : Placed) :
    Yields env (WideTable.lacksRow op.typeName op.transaction op.index)
      (fun r s' => ∃ lacks, r = .ok lacks ∧ s'.memory = s.memory ∧ s'.cache = s.cache ∧
        (lacks ↔ ¬op.HasRow s.memory)) s := by
  refine yields_store fun any m' world hany => .inr ⟨_, rfl, ?_⟩
  simp only [Memory.answer] at hany
  cases htable : s.memory.table? (WideTable.name op.typeName) with
  | none => simp [htable] at hany
  | some t =>
    rw [htable] at hany
    cases hany
    refine ⟨rfl, rfl, ?_⟩
    simp [Placed.HasRow, htable]

/-- A row is added under the columns that are remembered. -/
theorem addRow_yields {op : Placed} {known : List Column}
    (hknown : s.cache.columns.lookup (WideTable.name op.typeName) = some known) :
    Yields env (WideTable.addRow op.typeName op.payload)
      (fun r s' => ∃ u, r = .ok u ∧ SameButTables s.memory s'.memory ∧
        s'.memory.tables = putEntry (WideTable.name op.typeName)
          { tableFor s.memory op with
            rows := (tableFor s.memory op).rows ++ [WideTable.row known op.payload] }
          s.memory.tables) s := by
  refine (columns_yields s op).bind fun taken s' h => ?_
  -- columns that are remembered are not read again, and no table is founded for them
  obtain ⟨rfl, htables⟩ : taken = known ∧ s'.memory.tables = s.memory.tables := by
    obtain ⟨hsame, htables⟩ | ⟨hnone, -⟩ := h.origin
    · exact ⟨Option.some.inj (hsame.symm.trans hknown), htables⟩
    · cases hnone.symm.trans hknown
  rw [← Program.bind_done (store _)]
  refine yields_store fun _ m' world hadd => .inr ?_
  obtain ⟨t, htable, hmade⟩ := Store.Memory.of_addRow
    (Store.Memory.of_written (congrArg Prod.fst hadd))
  obtain rfl := (congrArg Prod.snd hadd).symm.trans hmade
  have hfor : tableFor s.memory op = t := by
    rw [tableFor, Memory.table?, ← htables]
    exact congrArg (Option.getD · _) htable
  refine ⟨_, rfl, h.rest.trans rfl, ?_⟩
  rw [hfor, htables]

/-- How storing an operation ends. Where it fails, its numbers do not fit, but it has its row. -/
def Placed.Handled (op : Placed) (s : Situation ω) (r : Except Error Unit) (s' : Situation ω) :
    Prop :=
  (∃ e, r = .error e ∧ op.record = .error e ∧
    s.memory.operation? (placeId op.blockNumber op.transaction op.index) = none ∧
    SameButTables s.memory s'.memory ∧
    op.RowMade (s.cache.columns.lookup (WideTable.name op.typeName)) s.memory s'.memory.tables) ∨
  r = .ok () ∧ ((∃ record, op.record = .ok record) ∨
    (s.memory.operation? (placeId op.blockNumber op.transaction op.index)).isSome)

/-- Once an operation has its row, what is left is the list of all operations. -/
theorem recordAmongAll_yields {op : Placed} {s s' : Situation ω}
    (hsame : SameButTables s.memory s'.memory)
    (hmade : op.RowMade (s.cache.columns.lookup (WideTable.name op.typeName)) s.memory
      s'.memory.tables) :
    Yields env
      ((store (.operation (placeId op.blockNumber op.transaction op.index))).bind fun found =>
        if found.isSome then .done ()
        else (Program.ofExcept op.record).bind fun record => store (.addOperation record))
      (op.Handled s) s' := by
  have holds : s'.memory.operation? = s.memory.operation? := by
    rw [hsame]
    rfl
  refine yields_store fun found m' world hfound => ?_
  cases hfound
  cases hold : s'.memory.operation? (placeId op.blockNumber op.transaction op.index) with
  | some old =>
    refine .inr (.inr ⟨rfl, .inr ?_⟩)
    rw [← holds, hold]
    rfl
  | none =>
    cases hrecord : op.record with
    | error e => exact .inr (.inl ⟨e, rfl, hrecord, holds ▸ hold, hsame, hmade⟩)
    | ok record =>
      show Yields env (store (.addOperation record)) _ _
      rw [← Program.bind_done (store _)]
      exact yields_store fun _ _ _ _ => .inr (.inr ⟨rfl, .inl ⟨record, hrecord⟩⟩)

theorem recordOperation_yields (s : Situation ω) (op : Placed) :
    Yields env (recordOperation op) (op.Handled s) s := by
  have hensure : Yields env (WideTable.ensure op.typeName op.payload)
      (fun r s' => ∃ table, r = .ok table ∧ ∃ known, op.ColumnsKnown s known s') s :=
    (columns_yields s op).bind fun known s' h => .inr ⟨_, rfl, known, h⟩
  refine hensure.bind fun _ s₁ ⟨known, hknown⟩ => ?_
  refine (lacksRow_yields s₁ op).bind fun lacks s₂ ⟨hmemory, hcache, hlacks⟩ => ?_
  -- a table that has just been founded has no row, so the row was there before or not at all
  rw [Placed.hasRow_iff, hknown.tableFor_eq, ← Placed.hasRow_iff] at hlacks
  cases lacks with
  | true =>
    have hmissing := hlacks.1 rfl
    refine (addRow_yields (hcache ▸ hknown.remembered)).bind fun _ s₃ ⟨hsame, htables⟩ =>
      recordAmongAll_yields (hknown.rest.trans (hmemory ▸ hsame)) ?_
    rw [htables, hmemory, hknown.tableFor_eq, hknown.putEntry_eq, ← hknown.known_eq]
    exact .made hmissing
  | false =>
    have hthere : op.HasRow s.memory := Classical.not_not.1 fun hmissing => by
      cases hlacks.2 hmissing
    refine recordAmongAll_yields (hmemory ▸ hknown.rest) ?_
    rw [hmemory, hknown.kept hthere]
    exact .kept hthere

/-- Whatever the store holds and the scanner remembers: if storing an operation fails, though the
store does not, then the numbers of the operation do not fit, and all has stayed as it was but the
tables; there the operation has got its row, and its table if there was none, unless it had its row
before. Where the scanner can rely on its store, this is what happens to every operation whose
numbers do not fit, if it is not stored. -/
theorem unfit_operations_leave_their_row (s : Situation ω) (op : Placed) :
    (∀ e s', Program.run env.answer (recordOperation op) s = (.error e, s') →
      e.isStoreFailure = false →
        op.record = .error e ∧ SameButTables s.memory s'.memory ∧
        op.RowMade (s.cache.columns.lookup (WideTable.name op.typeName)) s.memory
          s'.memory.tables ∧
        (s'.memory.tables = s.memory.tables ↔ op.HasRow s.memory)) ∧
      (env.Unhindered → Reliable s → ∀ e,
        (Program.run env.answer (recordOperation op) s).1 = .error e ↔ op.record = .error e ∧
          s.memory.operation? (placeId op.blockNumber op.transaction op.index) = none) := by
  have hyields : Yields env (recordOperation op) (op.Handled s) s := recordOperation_yields s op
  obtain ⟨-, hend⟩ := Program.ensures_iff.1 hyields
  refine ⟨fun e s' hrun he => ?_, fun henv hs e => ?_⟩
  · rw [hrun] at hend
    obtain ⟨e', hfail, he'⟩ | ⟨e', hfail, hrecord, -, hsame, hmade⟩ | ⟨hok, -⟩ := hend
    · cases hfail
      rw [he'] at he
      cases he
    · cases hfail
      exact ⟨hrecord, hsame, hmade, hmade.tables_eq_iff⟩
    · cases hok
  · -- a store that can be relied on does not fail, which leaves the other two outcomes
    obtain ⟨-, -, hserved⟩ := Program.ensures_iff.1 (recordOperation_served henv hs op)
    obtain ⟨e', hfail, he'⟩ | ⟨e', hfail, hrecord, hnone, -⟩ | ⟨hok, hdone⟩ := hend
    · rw [hfail] at hserved
      rw [hserved] at he'
      cases he'
    · rw [hfail, hrecord]
      exact ⟨fun h => ⟨by cases h; rfl, hnone⟩, fun h => by cases h.1; rfl⟩
    · rw [hok]
      refine iff_of_false nofun fun ⟨hrecord, hnone⟩ => ?_
      rcases hdone with ⟨record, hrecord'⟩ | hstored
      · cases hrecord.symm.trans hrecord'
      · rw [hnone] at hstored
        cases hstored

/-- An operation of a type whose code is too great for its column. -/
def boundless : Placed := Placed.ofDecoded 1 "t1" 0 0 2147483648 (locate .empty 1 "t1" 0)

/-- Surroundings in which nothing fails. -/
def undisturbed : Surroundings Unit := .steady (.lone { number := 1 } (.node "closed"))

/-- What becomes of an empty store to which it is handed over. -/
def boundlessRun : Except Error Unit × Situation Unit :=
  Program.run undisturbed.answer (recordOperation boundless) ⟨(), Memory.empty, Cache.empty⟩

/-- The operation is refused, and a table with its row is left behind. -/
theorem refused_operation_leaves_table :
    boundlessRun.1 = .error (.malformed (.outOfRange .operationType 2147483648)) ∧
      (boundlessRun.2.memory.tables.map fun entry => (entry.1, entry.2.rows.length)) =
        [("op_unknown_operation_2147483648", 1)] ∧
      boundlessRun.2.memory.operations = [] :=
  ⟨rfl, by decide +kernel, by decide +kernel⟩

theorem unfit_operations_leave_their_row_of_boundless :
    boundless.record = .error (.malformed (.outOfRange .operationType 2147483648)) ∧
      boundless.RowMade none Memory.empty boundlessRun.2.memory.tables ∧
      boundlessRun.2.memory.tables ≠ [] := by
  have hstart : Reliable (⟨(), Memory.empty, Cache.empty⟩ : Situation Unit) :=
    ⟨rfl, fun name known hknown => by simp [Cache.empty] at hknown⟩
  have henv : undisturbed.Unhindered :=
    ⟨fun _ _ => rfl, fun request _ => Answers.lone_error rfl request⟩
  have hnew : ¬boundless.HasRow Memory.empty := by
    rintro ⟨t, ht, -⟩
    cases ht
  obtain ⟨hleft, hfails⟩ :=
    @unfit_operations_leave_their_row Unit undisturbed ⟨(), Memory.empty, Cache.empty⟩ boundless
  have hrefused := (hfails henv hstart _).2 ⟨rfl, rfl⟩
  obtain ⟨hrecord, -, hmade, hsame⟩ := hleft _ _ (Prod.ext hrefused rfl) rfl
  exact ⟨hrecord, hmade, fun htables => hnew (hsame.1 htables)⟩

end ChainIndex.Scan
