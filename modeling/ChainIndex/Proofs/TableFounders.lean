import ChainIndex.Proofs.Anatomy
import ChainIndex.Proofs.WideRows

/-!
# The founders of wide tables

The table of an operation type is founded by an operation that is handed over to be stored. Where
one was handed over before, its run was broken off before the table was there. `Leading` says which
operations these can be: those which come before all others of their type in a run that has found no
table for them.
-/

namespace ChainIndex

open Scan (Placed WideTable.name WideTable.columnsOf WideTable.row)
open Store (Memory)
open Store.Memory (HasPlace isAt putEntry_of_none)

/-! ## What entries make of the tables -/

namespace Entry

/-- Whether an entry founds a table with these columns where there is none. -/
def Founds (table : String) (columns : List Column) : Entry → Prop
  | .table typeName sample =>
    WideTable.name typeName = table ∧ WideTable.columnsOf sample = columns
  | .row op => WideTable.name op.typeName = table ∧ WideTable.columnsOf op.payload = columns
  | _ => False

/-- The tables that are in one store and not in another have been founded by some entries. -/
def Founding (m : Memory) (es : List Entry) (m' : Memory) : Prop :=
  ∀ name t, m'.table? name = some t → m.table? name = none →
    ∃ entry ∈ es, entry.Founds name t.columns

variable {seen : List Entry} {entry : Entry} {m₀ m m' : Memory}

theorem Founding.congr {es : List Entry} (h : Founding m₀ seen m)
    (htables : m'.tables = m.tables) : Founding m₀ (seen ++ es) m' := by
  intro name t ht hnone
  have htable : m.table? name = some t := by rwa [Memory.table?, ← htables]
  obtain ⟨founder, hfounder, hfounds⟩ := h name t htable hnone
  exact ⟨founder, List.mem_append_left _ hfounder, hfounds⟩

/-- A table that is put under a name keeps the columns that were there, or is founded. -/
theorem Founding.put (h : Founding m₀ seen m) {name : String} {t' : Store.Table}
    (hkept : ∀ t, m.table? name = some t → t'.columns = t.columns)
    (hfounds : m.table? name = none → entry.Founds name t'.columns) :
    Founding m₀ (seen ++ [entry])
      { m with tables := Store.Memory.putEntry name t' m.tables } := by
  intro other t ht hnone
  by_cases hname : other = name
  · subst hname
    have hself : t' = t := by
      rw [Memory.table?, Store.Memory.lookup_putEntry_self] at ht
      exact Option.some.inj ht
    subst hself
    cases hbefore : m.table? other with
    | none => exact ⟨entry, by simp, hfounds hbefore⟩
    | some t =>
      rw [hkept t hbefore]
      obtain ⟨founder, hfounder, hfounds⟩ := h other t hbefore hnone
      exact ⟨founder, List.mem_append_left _ hfounder, hfounds⟩
  · rw [Memory.table?, Store.Memory.lookup_putEntry_of_ne _ _ hname] at ht
    obtain ⟨founder, hfounder, hfounds⟩ := h other t ht hnone
    exact ⟨founder, List.mem_append_left _ hfounder, hfounds⟩

/-- Every step founds what is new. -/
theorem Founding.step (hstep : Step entry m m') (h : Founding m₀ seen m) :
    Founding m₀ (seen ++ [entry]) m' := by
  cases hstep with
  | @table typeName sample _ hfree =>
    rw [← putEntry_of_none hfree]
    exact h.put (fun t ht => by rw [hfree] at ht; cases ht) fun _ => ⟨rfl, rfl⟩
  | @row op _ hfree =>
    refine h.put (fun t ht => ?_) fun hnone => ⟨rfl, ?_⟩
    · simp [tableFor, ht]
    · simp [tableFor, hnone]
  | derived _ hsame =>
    have htables := congrArg Memory.tables hsame
    exact h.congr htables
  | _ => exact h.congr rfl

/-- So do lists of entries. -/
theorem founding_of_enterAll {es : List Entry} (hm : m.WellFormed)
    (hfits : ∀ entry ∈ es, entry.Fits) (h : enterAll es m = (.ok (), m')) : Founding m es m' :=
  enterAll_carries (fun _ _ hstep => Founding.step hstep) hm hfits h fun name t ht hnone => by
    rw [hnone] at ht
    cases ht

end Entry

namespace Scan

open Entry (WideRows)

variable {ω : Type} {env : Surroundings ω} {s : Situation ω}

/-! ## How an operation gets to its table -/

/-- Whether a request looks for a table, or founds it. -/
def Request.Seeks (table : String) : Request → Prop
  | .store (.hasTable name) | .store (.addTable name _ _) => name = table
  | _ => False

/-- Nothing that was stored before a stage is taken away there. -/
theorem grows_of_mem_stages {α : Type} {p : Procedure α}
    {x : Program.Stage interface Error α (Situation ω)} (hx : x ∈ p.stages env.answer s) :
    s.memory.Grows x.after.memory := by
  induction p generalizing s with
  | done a => cases hx
  | fail e => cases hx
  | ask request next ih =>
    have hfirst := env.answer_grows request s
    rcases List.mem_cons.1 hx with rfl | hx
    · exact hfirst
    · exact hfirst.trans (ih _ hx)

/-- What is stored after a stage is stored after the stages that follow. -/
theorem grows_of_cut {α : Type} {p : Procedure α}
    {done : List (Program.Stage interface Error α (Situation ω))}
    {last : Program.Stage interface Error α (Situation ω)}
    (hcut : done ++ [last] <+: p.stages env.answer s) :
    ∀ x ∈ done ++ [last], x.after.memory.Grows last.after.memory := by
  refine Program.stages_keep
    (K := fun done s => ∀ x ∈ done, x.after.memory.Grows s.memory) ?_ nofun hcut
  intro done x hx hgrows y hy
  rcases List.mem_append.1 hy with hy | hy
  · obtain ⟨request, next, hstage⟩ := Program.exists_of_mem_stages hx
    rw [hstage]
    exact (hgrows y hy).trans (env.answer_grows request x.before)
  · rw [List.mem_singleton.1 hy]
    exact Memory.Grows.refl _

/-- The stages of a request to the store and of what follows if it is answered. -/
theorem mem_stages_store {α : Type} {request : Store.Request} {f : request.Result → Procedure α}
    {x : Program.Stage interface Error α (Situation ω)}
    (hx : x ∈ ((store request).bind f).stages env.answer s) :
    x.request? = some (.store request) ∨
      ∃ v, (env.answer (.store request) s).1 = .ok v ∧
        x ∈ (f v).stages env.answer (env.answer (.store request) s).2 := by
  rcases List.mem_cons.1 hx with rfl | hx
  · exact .inl rfl
  · right
    cases hreply : (env.answer (.store request) s).1 with
    | ok v =>
      rw [hreply] at hx
      exact ⟨v, rfl, hx⟩
    | error e =>
      rw [hreply] at hx
      cases hx

/-- The columns of a table are called for, and as long as it is not there, it is only looked for and
founded. -/
theorem columns_stages (s : Situation ω) (typeName : String) (sample : Payload) :
    ∃ rest, (WideTable.columns typeName sample).stages env.answer s =
        ⟨WideTable.columns typeName sample, s, s⟩ :: rest ∧
      ∀ x ∈ rest, x.after.memory.table? (WideTable.name typeName) = none →
        ∃ request, x.request? = some request ∧ request.Seeks (WideTable.name typeName) := by
  refine ⟨_, rfl, fun x hx habsent => ?_⟩
  have hx : x ∈ ((Program.done (s.cache.columns.lookup (WideTable.name typeName)) :
      Procedure (Option (List Column))).bind _).stages env.answer s := hx
  cases hknown : s.cache.columns.lookup (WideTable.name typeName) with
  | some known =>
    rw [hknown] at hx
    cases hx
  | none =>
    rw [hknown] at hx
    rcases mem_stages_store hx with hasked | ⟨found, hfound, hx⟩
    · exact ⟨_, hasked, rfl⟩
    cases found with
    | true =>
      -- the store has said that the table is there
      obtain ⟨hreply, hsame⟩ := env.answer_of_ok hfound
      have hnone := (grows_of_mem_stages hx).table?_eq_none habsent
      rw [hsame] at hnone
      exact absurd hnone (Option.isSome_iff_ne_none.1 (Except.ok.inj hreply))
    | false =>
      rcases mem_stages_store hx with hasked | ⟨_, hmade, hx⟩
      · exact ⟨_, hasked, rfl⟩
      -- the table has been founded
      have hnone := (grows_of_mem_stages hx).table?_eq_none habsent
      rw [(env.answer_of_ok hmade).2] at hnone
      exact absurd hnone (Option.isSome_iff_ne_none.1 (Memory.table?_addTable _ _ _ _))

/-- An operation calls for the columns of its table first. As long as the table is not there, it is
only looked for and founded, and it stays away only where the store fails. -/
theorem recordOperation_stages (hs : Sound s) {op : Placed} (hfits : (Entry.row op).Fits) :
    (∃ rest, (recordOperation op).stages env.answer s = ⟨recordOperation op, s, s⟩ :: rest ∧
      ∀ x ∈ rest, x.after.memory.table? (WideTable.name op.typeName) = none →
        ∃ request, x.request? = some request ∧ request.Seeks (WideTable.name op.typeName)) ∧
    ((Program.run env.answer (recordOperation op) s).2.memory.table?
        (WideTable.name op.typeName) = none →
      ∃ e, (Program.run env.answer (recordOperation op) s).1 = .error e ∧ e.isStoreFailure) := by
  obtain ⟨f, hsplit⟩ : ∃ f, recordOperation op =
      (WideTable.columns op.typeName op.payload).bind f := ⟨_, Program.bind_assoc _ _ _⟩
  have hcolumns : Enters (Frame.plain env) (fun _ => .ok []) .firm
      [.table op.typeName op.payload] (WideTable.columns op.typeName op.payload)
      (fun known s' => ∃ t, s'.memory.table? (WideTable.name op.typeName) = some t ∧
        t.columns = known) s :=
    columns_enters ⟨trivial, hs⟩ hfits.1.hasPlace
  obtain ⟨-, -, houtcome⟩ := Program.ensures_iff.1 hcolumns.ensures
  obtain ⟨rest, hrest, hseeks⟩ := columns_stages s op.typeName op.payload
  have hmem : ∀ {x}, x ∈ rest → x ∈
      (WideTable.columns op.typeName op.payload).stages env.answer s := by
    intro x hx
    rw [hrest]
    exact List.mem_cons_of_mem _ hx
  rw [hsplit, Program.stages_bind, Program.run_bind, hrest]
  cases hrun : Program.run env.answer (WideTable.columns op.typeName op.payload) s with
  | mk r s₁ =>
    rw [hrun] at houtcome
    cases r with
    | error e =>
      refine ⟨⟨_, rfl, fun x hx habsent => ?_⟩, fun _ => ⟨e, rfl, houtcome.1⟩⟩
      rcases List.mem_append.1 hx with hx | hx
      · obtain ⟨y, hy, rfl⟩ := List.mem_map.1 hx
        rw [Program.request?_within (hmem hy) fun _ _ => ⟨_, rfl⟩]
        exact hseeks y hy habsent
      · cases hx
    | ok known =>
      obtain ⟨-, t, ht, -⟩ := houtcome
      refine ⟨⟨_, rfl, fun x hx habsent => ?_⟩, fun habsent => ?_⟩
      · rcases List.mem_append.1 hx with hx | hx
        · obtain ⟨y, hy, rfl⟩ := List.mem_map.1 hx
          rw [Program.request?_within (hmem hy) fun _ _ => ⟨_, rfl⟩]
          exact hseeks y hy habsent
        · -- the table is there by then
          obtain ⟨t', ht', -⟩ := (grows_of_mem_stages hx).table _ t ht
          rw [ht'] at habsent
          cases habsent
      · obtain ⟨t', ht', -⟩ := (run_grows (f known) s₁).table _ t ht
        rw [ht'] at habsent
        cases habsent

/-! ## Who founds a table -/

/-- At this stage an operation is handed over to be stored. -/
def Recorded.Presents (x : Recorded ω) (op : Placed) : Prop :=
  ∃ next : Except Error Unit → Procedure Position,
    x.stage.task = (recordOperation op).attempt.bind next

/-- At this stage the columns of a table are called for, as they are for every operation first. -/
def Recorded.Calls (x : Recorded ω) (table : String) : Prop :=
  x.stage.request? = some (Request.cache (.columns table))

/-- At this stage a table is looked for, or founded. -/
def Recorded.Seeks (x : Recorded ω) (table : String) : Prop :=
  ∃ request : Request, x.stage.request? = some request ∧ request.Seeks table

/-- Where the columns of a table have been called for, it was for an operation that `leads`, and
nothing has come of it: the rest of the run only looks for the table and founds it. -/
structure InVain (leads : Placed → Prop) (table : String) (past : List (Recorded ω)) : Prop where
  leading : ∀ x ∈ past, x.Calls table → ∃ op, x.Presents op ∧ leads op
  seeking : past.Pairwise fun x y => x.Calls table → y.run = x.run → y.Seeks table

/-- An operation that the node has told of has been handed over. -/
structure Handed (env : Surroundings ω) (past : List (Recorded ω)) (op : Placed) : Prop where
  presented : ∃ x ∈ past, x.Presents op
  told : env.Tells op
  number : (op.blockNumber : Int) ≤ int64Max
  index : (op.index : Int) ≤ int64Max

/-- What is known of the tables after some stages. -/
structure Tabled (env : Surroundings ω) (leads : Placed → Prop) (past : List (Recorded ω))
    (m : Memory) : Prop where
  rows : ∃ es, WideRows es m ∧ ∀ op, Entry.row op ∈ es → Handed env past op
  founder : ∀ name t, m.table? name = some t → ∃ before x after op,
    past = before ++ x :: after ∧ x.Presents op ∧ env.Tells op ∧
      WideTable.name op.typeName = name ∧ t.columns = WideTable.columnsOf op.payload ∧
      InVain leads name (before ++ [x])
  absent : ∀ name, m.table? name = none → InVain leads name past

/-- A run has not called for tables that are not there. -/
def Quiet (n : Nat) (past : List (Recorded ω)) (m : Memory) : Prop :=
  ∀ name, m.table? name = none → ∀ x ∈ past, x.Calls name → x.run < n

/-- Where some operations have been stored, one that is due leads if it comes before all others of
its type and its table is not there. -/
def Leading (leads : Placed → Prop) (due : List Placed → Prop) (before : List Placed)
    (m : Memory) : Prop :=
  ∀ more op, due (before ++ more ++ [op]) → m.table? (WideTable.name op.typeName) = none →
    (∀ op' ∈ more, WideTable.name op'.typeName ≠ WideTable.name op.typeName) → leads op

section

variable {n : Nat} {past later : List (Recorded ω)} {m m' : Memory} {op : Placed}
  {x : Recorded ω} {table : String} {leads : Placed → Prop} {due : List Placed → Prop}
  {before : List Placed}

theorem Recorded.Presents.calls (h : x.Presents op) : x.Calls (WideTable.name op.typeName) := by
  obtain ⟨next, hnext⟩ := h
  unfold Recorded.Calls Program.Stage.request?
  rw [hnext]
  rfl

theorem Recorded.Calls.unique {table' : String} (h : x.Calls table) (h' : x.Calls table') :
    table = table' := by
  cases h.symm.trans h'
  rfl

/-- The columns of the table that a task founds if it is told that there is none. -/
def newColumns : Procedure Position → Option (List Column)
  | .ask (.cache (.columns _)) next =>
    match next none with
    | .ask (.store (.hasTable _)) next =>
      match next (.ok false) with
      | .ask (.store (.addTable _ columns _)) _ => some columns
      | _ => none
    | _ => none
  | _ => none

/-- Where an operation is handed over, its task tells the columns that its payload calls for. -/
theorem Recorded.Presents.columns (h : x.Presents op) :
    newColumns x.stage.task = some (WideTable.columnsOf op.payload) := by
  obtain ⟨next, hnext⟩ := h
  rw [hnext]
  rfl

theorem Recorded.Seeks.not_calls (h : x.Seeks table) (table' : String) : ¬x.Calls table' := by
  obtain ⟨request, hrequest, hseeks⟩ := h
  intro hcalls
  cases hrequest.symm.trans hcalls
  exact hseeks

theorem Handed.mono (h : Handed env past op) (hpast : past ⊆ later) : Handed env later op :=
  let ⟨x, hx, hpresents⟩ := h.presented
  { h with presented := ⟨x, hpast hx, hpresents⟩ }

theorem Leading.grow (h : Leading leads due before m) (hgrows : m.Grows m') :
    Leading leads due before m' :=
  fun more op hdue hnone => h more op hdue (hgrows.table?_eq_none hnone)

/-- An operation has been stored in its table. -/
theorem Leading.next (h : Leading leads due before m)
    (hthere : m.table? (WideTable.name op.typeName) ≠ none) :
    Leading leads due (before ++ [op]) m := by
  intro more other hdue hnone hmore
  refine h (op :: more) other (by simpa using hdue) hnone fun op' hop' hname => ?_
  rcases List.mem_cons.1 hop' with rfl | hop'
  · exact hthere (hname ▸ hnone)
  · exact hmore op' hop' hname

theorem Leading.here (h : Leading leads due before m) (hdue : due (before ++ [op]))
    (hnone : m.table? (WideTable.name op.typeName) = none) : leads op :=
  h [] op (by simpa using hdue) hnone nofun

/-- Nothing has been called for at some stages. -/
theorem inVain_of_not_calls (h : ∀ x ∈ past, ¬x.Calls table) : InVain leads table past where
  leading x hx hcalls := absurd hcalls (h x hx)
  seeking := List.pairwise_of_forall_mem_list fun x hx _ _ hcalls => absurd hcalls (h x hx)

/-- Nobody waits for a table in a run that has not called for it. -/
theorem InVain.append (h : InVain leads table past) (hlater : InVain leads table later)
    (hquiet : ∀ x ∈ past, x.Calls table → x.run < n) (hrun : ∀ x ∈ later, x.run = n) :
    InVain leads table (past ++ later) where
  leading x hx hcalls := by
    rcases List.mem_append.1 hx with hx | hx
    · exact h.leading x hx hcalls
    · exact hlater.leading x hx hcalls
  seeking := by
    refine List.pairwise_append.2 ⟨h.seeking, hlater.seeking, fun x hx y hy hcalls hsame => ?_⟩
    have hbefore := hquiet x hx hcalls
    rw [← hsame, hrun y hy] at hbefore
    exact absurd hbefore (Nat.lt_irrefl n)

/-- An operation that leads is handed over first, and then its table is only sought. -/
theorem inVain_of_presents (hx : x.Presents op) (hleads : leads op)
    (hseeks : ∀ y ∈ later, y.Seeks (WideTable.name op.typeName)) :
    InVain leads (WideTable.name op.typeName) (x :: later) where
  leading y hy hcalls := by
    rcases List.mem_cons.1 hy with rfl | hy
    · exact ⟨op, hx, hleads⟩
    · exact absurd hcalls ((hseeks y hy).not_calls _)
  seeking := by
    refine List.pairwise_cons.2 ⟨fun y hy _ _ => hseeks y hy, ?_⟩
    exact List.pairwise_of_forall_mem_list fun y hy _ _ hcalls =>
      absurd hcalls ((hseeks y hy).not_calls _)

/-- Stages of a run are added, of which the first founds the tables that are new. -/
theorem Tabled.extend (h : Tabled env leads past m) (hquiet : Quiet n past m)
    (hrun : ∀ x ∈ later, x.run = n) (hgrows : m.Grows m')
    (hrows : ∃ es, WideRows es m' ∧ ∀ op, Entry.row op ∈ es → Handed env (past ++ later) op)
    (hfounder : ∀ name t, m'.table? name = some t → m.table? name = none → ∃ x after op,
      later = x :: after ∧ x.Presents op ∧ env.Tells op ∧ WideTable.name op.typeName = name ∧
        t.columns = WideTable.columnsOf op.payload ∧ leads op)
    (habsent : ∀ name, m'.table? name = none → InVain leads name later) :
    Tabled env leads (past ++ later) m' := by
  have hnone : ∀ name, m'.table? name = none → m.table? name = none := fun _ hnone =>
    hgrows.table?_eq_none hnone
  refine ⟨hrows, fun name t' ht' => ?_, fun name hname => ?_⟩
  · cases ht : m.table? name with
    | none =>
      obtain ⟨x, after, op, rfl, hpresents, htold, rfl, hcolumns, hleads⟩ :=
        hfounder name t' ht' ht
      refine ⟨past, x, after, op, rfl, hpresents, htold, rfl, hcolumns, ?_⟩
      exact (h.absent _ ht).append (inVain_of_presents hpresents hleads nofun) (hquiet _ ht)
        fun y hy => hrun y (by simp [List.mem_singleton.1 hy])
    | some t =>
      obtain ⟨t₁, ht₁, hcolumns₁, -⟩ := hgrows.table name t ht
      cases ht'.symm.trans ht₁
      obtain ⟨before, x, after, op, rfl, hpresents, htold, hname, hcolumns, hvain⟩ :=
        h.founder name t ht
      exact ⟨before, x, after ++ later, op, by simp, hpresents, htold, hname,
        hcolumns₁.trans hcolumns, hvain⟩
  · exact (h.absent name (hnone name hname)).append (habsent name hname)
      (hquiet name (hnone name hname)) hrun

/-- Stages that have nothing to do with the tables. -/
theorem Tabled.pass (h : Tabled env leads past m) (hquiet : Quiet n past m)
    (hrun : ∀ x ∈ later, x.run = n) (hcalls : ∀ x ∈ later, ∀ name, ¬x.Calls name)
    (hgrows : m.Grows m') (htables : m'.tables = m.tables) :
    Tabled env leads (past ++ later) m' ∧ Quiet n (past ++ later) m' := by
  have htable : ∀ name, m'.table? name = m.table? name := by
    intro name
    rw [Memory.table?, Memory.table?, htables]
  constructor
  · refine h.extend hquiet hrun hgrows ?_ ?_ ?_
    · obtain ⟨es, hes, hhanded⟩ := h.rows
      exact ⟨es, hes.of_tables htables, fun op hop =>
        (hhanded op hop).mono (List.subset_append_left _ _)⟩
    · intro name t ht hnone
      rw [htable, hnone] at ht
      cases ht
    · exact fun name _ => inVain_of_not_calls fun x hx => hcalls x hx name
  · intro name hnone x hx hcalled
    rw [htable] at hnone
    rcases List.mem_append.1 hx with hx | hx
    · exact hquiet name hnone x hx hcalled
    · exact absurd hcalled (hcalls x hx name)

/-- The stages of an operation that is stored, up to any point. -/
theorem Tabled.place (h : Tabled env leads past m) (hquiet : Quiet n past m) (hm : m.WellFormed)
    (hleads : m.table? (WideTable.name op.typeName) = none → leads op)
    (htold : env.Tells op) (hnumber : (op.blockNumber : Int) ≤ int64Max)
    (hindex : (op.index : Int) ≤ int32Max + 1) (hx : x.Presents op)
    (hrun : ∀ y ∈ x :: later, y.run = n)
    (hcalls : ∀ y ∈ later, ∀ name, y.Calls name → name = WideTable.name op.typeName)
    (hseeks : m'.table? (WideTable.name op.typeName) = none →
      ∀ y ∈ later, y.Seeks (WideTable.name op.typeName))
    (hgrows : m.Grows m')
    (hpartly : Partly [.table op.typeName op.payload, .row op, .operation op] m.history
      m'.history) :
    Tabled env leads (past ++ x :: later) m' := by
  obtain ⟨made, hmade, henter⟩ := hpartly
  have hfits := htold.fits hindex
  have hall : ∀ entry ∈ made, entry.Fits := by
    intro entry hentry
    have hmem := hmade.subset hentry
    simp only [List.mem_cons, List.not_mem_nil, or_false] at hmem
    rcases hmem with rfl | rfl | rfl
    · exact ⟨_, _, hfits.1⟩
    · exact hfits
    · trivial
  refine h.extend hquiet hrun hgrows ?_ ?_ ?_
  · obtain ⟨es, hes, hhanded⟩ := h.rows
    have hrows : WideRows es m.history := hes.of_tables rfl
    have hafter : WideRows (es ++ made) m' :=
      (Entry.enterAll_carries_on WideRows.step hm.history hall henter hrows).of_tables rfl
    refine ⟨es ++ made, hafter, fun op' hop' => ?_⟩
    rcases List.mem_append.1 hop' with hop' | hop'
    · exact (hhanded op' hop').mono (List.subset_append_left _ _)
    · have hsame : op' = op := by
        have hmem := hmade.subset hop'
        simpa using hmem
      subst hsame
      exact ⟨⟨x, by simp, hx⟩, htold, hnumber, hfits.2⟩
  · -- a new table has been founded by this operation
    intro name t ht hnone
    obtain ⟨entry, hentry, hfounds⟩ :=
      Entry.founding_of_enterAll hm.history hall henter name t ht hnone
    have hmem := hmade.subset hentry
    simp only [List.mem_cons, List.not_mem_nil, or_false] at hmem
    refine ⟨x, later, op, rfl, hx, htold, ?_⟩
    rcases hmem with rfl | rfl | rfl
    · obtain ⟨rfl, hcolumns⟩ := hfounds
      exact ⟨rfl, hcolumns.symm, hleads hnone⟩
    · obtain ⟨rfl, hcolumns⟩ := hfounds
      exact ⟨rfl, hcolumns.symm, hleads hnone⟩
    · cases hfounds
  · intro name hnone
    by_cases hname : name = WideTable.name op.typeName
    · subst hname
      exact inVain_of_presents hx (hleads (hgrows.table?_eq_none hnone)) (hseeks hnone)
    · -- no other table is called for
      refine inVain_of_not_calls fun y hy hcalled => hname ?_
      rcases List.mem_cons.1 hy with rfl | hy
      · cases hcalled.symm.trans hx.calls
        rfl
      · exact hcalls y hy name hcalled

/-- Who calls for a table is allowed to. -/
theorem allows_of_calls {α : Type} {p : Procedure α} {allows : Request → Prop}
    (h : Heeds allows p) {y : Program.Stage interface Error α (Situation ω)}
    (hy : y ∈ p.stages env.answer s) {f : Procedure α → Procedure Position}
    (hf : ∀ request next, ∃ next', f (.ask request next) = .ask request next') {name : String}
    (hcalls : Recorded.Calls ⟨n, y.within f⟩ name) : allows (.cache (.columns name)) := by
  obtain ⟨request, next, hallowed, hstage⟩ := h.asks hy
  have hrequest : y.request? = some request := by
    rw [hstage]
    rfl
  have hsame := (Program.request?_within hy hf).symm.trans hcalls
  cases hrequest.symm.trans hsame
  exact hallowed

/-- An operation that is stored, up to any of its stages. -/
theorem recordOperation_tabled (h : Tabled env leads past s.memory)
    (hquiet : Quiet n past s.memory) (hs : Sound s)
    (hleads : s.memory.table? (WideTable.name op.typeName) = none → leads op)
    (htold : env.Tells op) (hnumber : (op.blockNumber : Int) ≤ int64Max)
    (hindex : (op.index : Int) ≤ int32Max + 1) (next : Except Error Unit → Procedure Position)
    {done : List (Program.Stage interface Error Unit (Situation ω))}
    {last : Program.Stage interface Error Unit (Situation ω)}
    (hcut : done ++ [last] <+: (recordOperation op).stages env.answer s) :
    Tabled env leads
      (past ++ ((done ++ [last]).map (·.within fun task => task.attempt.bind next)).map (⟨n, ·⟩))
      last.after.memory := by
  have hfits := htold.fits hindex
  have hlast : last ∈ (recordOperation op).stages env.answer s := hcut.subset (by simp)
  obtain ⟨⟨rest, hrest, hseeks⟩, -⟩ := recordOperation_stages hs hfits
  -- the moment after the last stage
  have henters : Enters (Frame.plain env) (fun _ => .ok []) .strict
      [.table op.typeName op.payload, .row op, .operation op] (recordOperation op)
      (fun _ _ => True) s := recordOperation_enters ⟨trivial, hs⟩ hfits
  have hmoment : last.after ∈ (recordOperation op).moments env.answer s := by
    rw [Program.moments_eq_map_stages]
    exact List.mem_map_of_mem hlast
  have hpartly := ((Program.ensures_iff.1 henters.ensures).1 _ hmoment).partly
  have hgrows := grows_of_cut hcut
  -- the first stage presents the operation
  obtain ⟨rest', hstages, hbegins⟩ : ∃ rest', done ++ [last] = ⟨recordOperation op, s, s⟩ :: rest' ∧
      rest' <+: rest := by
    have hcut' := hcut
    rw [hrest] at hcut'
    exact (List.prefix_cons_iff.1 hcut').resolve_left (by simp)
  have hmem : ∀ y ∈ rest', y ∈ (recordOperation op).stages env.answer s := by
    intro y hy
    rw [hrest]
    exact List.mem_cons_of_mem _ (hbegins.subset hy)
  rw [hstages] at hgrows ⊢
  refine h.place hquiet hs.memory hleads htold hnumber hindex ⟨next, rfl⟩ (by simp) ?_ ?_
    (grows_of_mem_stages hlast) hpartly
  · intro y hy name hcalls
    simp only [List.mem_map, exists_exists_and_eq_and] at hy
    obtain ⟨z, hz, rfl⟩ := hy
    exact allows_of_calls (recordOperation_heeds op) (hmem z hz) (fun _ _ => ⟨_, rfl⟩) hcalls
  · intro habsent y hy
    simp only [List.mem_map, exists_exists_and_eq_and] at hy
    obtain ⟨z, hz, rfl⟩ := hy
    have hgone := (hgrows z (List.mem_cons_of_mem _ hz)).table?_eq_none habsent
    obtain ⟨request, hrequest, hseek⟩ := hseeks z (hbegins.subset hz) hgone
    exact ⟨request, (Program.request?_within (hmem z hz) fun _ _ => ⟨_, rfl⟩).trans hrequest, hseek⟩

/-- Where an operation has been stored, its table is there, unless the store has failed. -/
theorem recordOperation_tabled_end (h : Tabled env leads past s.memory)
    (hquiet : Quiet n past s.memory) (hs : Sound s)
    (hleads : s.memory.table? (WideTable.name op.typeName) = none → leads op)
    (htold : env.Tells op) (hnumber : (op.blockNumber : Int) ≤ int64Max)
    (hindex : (op.index : Int) ≤ int32Max + 1)
    (next : Except Error Unit → Procedure Position)
    (hthere : (Program.run env.answer (recordOperation op) s).2.memory.table?
      (WideTable.name op.typeName) ≠ none) :
    Tabled env leads
        (past ++ (((recordOperation op).stages env.answer s).map
          (·.within fun task => task.attempt.bind next)).map (⟨n, ·⟩))
        (Program.run env.answer (recordOperation op) s).2.memory ∧
      Quiet n
        (past ++ (((recordOperation op).stages env.answer s).map
          (·.within fun task => task.attempt.bind next)).map (⟨n, ·⟩))
        (Program.run env.answer (recordOperation op) s).2.memory := by
  constructor
  · obtain ⟨⟨rest, hrest, -⟩, -⟩ := recordOperation_stages hs (htold.fits hindex)
    obtain ⟨done, last, hstages, hend⟩ := Program.exists_stages_eq_concat
      (hrest ▸ List.cons_ne_nil _ _ : (recordOperation op).stages env.answer s ≠ [])
    have hcut : done ++ [last] <+: (recordOperation op).stages env.answer s :=
      ⟨[], by rw [hstages, List.append_nil]⟩
    rw [hend, hstages]
    exact recordOperation_tabled h hquiet hs hleads htold hnumber hindex next hcut
  · intro name hnone x hx hcalls
    rcases List.mem_append.1 hx with hx | hx
    · exact hquiet name ((run_grows (recordOperation op) s).table?_eq_none hnone) x hx hcalls
    · simp only [List.mem_map, exists_exists_and_eq_and] at hx
      obtain ⟨z, hz, rfl⟩ := hx
      have hname : name = WideTable.name op.typeName :=
        allows_of_calls (recordOperation_heeds op) hz (fun _ _ => ⟨_, rfl⟩) hcalls
      rw [hname] at hnone
      exact absurd hnone hthere

/-- What has nothing to do with the tables, up to any of its stages. -/
theorem pass_tabled {α : Type} {p : Procedure α} {allows : Request → Prop} (hp : Heeds allows p)
    (hallows : ∀ request : Request, allows request →
      request.target? ≠ some .tables ∧ ∀ name, request ≠ .cache (.columns name))
    (h : Tabled env leads past s.memory) (hquiet : Quiet n past s.memory)
    (next : Except Error α → Procedure Position)
    {done : List (Program.Stage interface Error α (Situation ω))}
    (hdone : done ⊆ p.stages env.answer s) {s' : Situation ω}
    (hgrows : s.memory.Grows s'.memory) (htables : s'.memory.tables = s.memory.tables) :
    Tabled env leads
        (past ++ (done.map (·.within fun task => task.attempt.bind next)).map (⟨n, ·⟩))
        s'.memory ∧
      Quiet n
        (past ++ (done.map (·.within fun task => task.attempt.bind next)).map (⟨n, ·⟩))
        s'.memory := by
  refine h.pass hquiet (by simp) (fun x hx name hcalls => ?_) hgrows htables
  simp only [List.mem_map, exists_exists_and_eq_and] at hx
  obtain ⟨y, hy, rfl⟩ := hx
  exact (hallows _ (allows_of_calls hp (hdone hy) (fun _ _ => ⟨_, rfl⟩) hcalls)).2 name rfl

/-- What has nothing to do with the tables, and then something else. -/
theorem attempt_bind_tabled {α : Type} {p : Procedure α} {allows : Request → Prop}
    (hp : Heeds allows p)
    (hallows : ∀ request : Request, allows request →
      request.target? ≠ some .tables ∧ ∀ name, request ≠ .cache (.columns name))
    (h : Tabled env leads past s.memory) (hquiet : Quiet n past s.memory)
    {next : Except Error α → Procedure Position} {done : List (Stage ω)} {last : Stage ω}
    (hcut : done ++ [last] <+: (p.attempt.bind next).stages env.answer s)
    (hrest : ∀ {past : List (Recorded ω)} {done : List (Stage ω)},
      Tabled env leads past (Program.run env.answer p s).2.memory →
      Quiet n past (Program.run env.answer p s).2.memory →
      done ++ [last] <+: (next (Program.run env.answer p s).1).stages env.answer
        (Program.run env.answer p s).2 →
      Tabled env leads (past ++ (done ++ [last]).map (⟨n, ·⟩)) last.after.memory) :
    Tabled env leads (past ++ (done ++ [last]).map (⟨n, ·⟩)) last.after.memory := by
  have hkept : ∀ (request : Request) (s' : Situation ω), allows request →
      s'.memory.tables = s.memory.tables →
      (env.answer request s').2.memory.tables = s.memory.tables :=
    fun request s' hrequest hsame =>
      (env.answer_same (hallows request hrequest).1 s').trans hsame
  rw [Program.stages_attempt_bind] at hcut
  rcases Program.cut_append hcut with hwithin | ⟨done', rfl, hlater⟩
  · obtain ⟨done', last', rfl, rfl, hinner⟩ := Program.cut_map hwithin
    have htables : last'.after.memory.tables = s.memory.tables := by
      refine Program.stages_keep
        (K := fun _ (s' : Situation ω) => s'.memory.tables = s.memory.tables)
        (fun _ x hx hsame => ?_) rfl hinner
      obtain ⟨request, next, hallowed, hstage⟩ := hp.asks hx
      rw [hstage]
      exact hkept request x.before hallowed hsame
    have hpassed := (pass_tabled hp hallows h hquiet next hinner.subset
      (grows_of_mem_stages (hinner.subset (by simp))) htables).1
    simpa [Program.Stage.within] using hpassed
  · obtain ⟨hpassed, hquiet'⟩ := pass_tabled hp hallows h hquiet next
      (List.Subset.refl _) (run_grows _ s) (hp.keeps hkept rfl)
    have hall := hrest hpassed hquiet' hlater
    simpa using hall

/-- Wherever a run is cut short, what is known of the tables is as it was. -/
theorem Anatomy.tabled {caller : String} {post : List Placed → Position → Prop}
    {p : Procedure Position} (hp : Anatomy env caller due post before p) (hs : Sound s)
    (h : Tabled env leads past s.memory) (hquiet : Quiet n past s.memory)
    (hleading : Leading leads due before s.memory) {done : List (Stage ω)} {last : Stage ω}
    (hcut : done ++ [last] <+: p.stages env.answer s) :
    Tabled env leads (past ++ (done ++ [last]).map (⟨n, ·⟩)) last.after.memory := by
  induction hp generalizing s past done with
  | done _ => simp [Program.stages] at hcut
  | fail e => simp [Program.stages] at hcut
  | @ask before request next outer _ ih =>
    have htarget : request.target? ≠ some .tables := by
      intro htarget
      cases Request.target?_of_isOuter outer htarget
    obtain ⟨hfirst, hquiet'⟩ :
        Tabled env leads (past ++ [⟨n, .ask request next, s, (env.answer request s).2⟩])
            (env.answer request s).2.memory ∧
          Quiet n (past ++ [⟨n, .ask request next, s, (env.answer request s).2⟩])
            (env.answer request s).2.memory := by
      refine h.pass hquiet (by simp) (fun x hx name hcalls => ?_) (env.answer_grows request s)
        (env.answer_same htarget s)
      cases List.mem_singleton.1 hx
      cases hcalls
      cases outer
    cases done with
    | nil =>
      obtain ⟨rfl, -⟩ := List.cons_prefix_cons.1 hcut
      exact hfirst
    | cons first done =>
      obtain ⟨rfl, hrest⟩ := List.cons_prefix_cons.1 hcut
      have hall := ih s hs (hs.outer outer) hfirst hquiet'
        (hleading.grow (env.answer_grows request s)) hrest
      simpa using hall
  | @record before op next told turn number index halt _ ih =>
    have hleads := hleading.here turn
    rw [Program.stages_attempt_bind] at hcut
    rcases Program.cut_append hcut with hwithin | ⟨done', rfl, hrest⟩
    · obtain ⟨done', last', rfl, rfl, hinner⟩ := Program.cut_map hwithin
      have hplaced := recordOperation_tabled h hquiet hs hleads told number index next hinner
      simpa [Program.Stage.within] using hplaced
    · -- the run goes on, so that the table is there
      have hthere : (Program.run env.answer (recordOperation op) s).2.memory.table?
          (WideTable.name op.typeName) ≠ none := by
        intro hnone
        obtain ⟨-, hfailed⟩ := recordOperation_stages hs (told.fits index)
        obtain ⟨e, hrun, he⟩ := hfailed hnone
        rw [hrun, halt e he] at hrest
        simp [Program.stages] at hrest
      obtain ⟨hplaced, hquiet'⟩ :=
        recordOperation_tabled_end h hquiet hs hleads told number index next hthere
      obtain ⟨hsound, hposition⟩ := recordOperation_end hs (told.fits index)
      have hall := ih _ hposition hsound hplaced hquiet'
        ((hleading.grow (run_grows _ s)).next hthere) hrest
      simpa using hall
  | @observe before seen next _ _ ih =>
    have hallows : ∀ request : Request, request.observes Derived.all →
        request.target? ≠ some .tables ∧ ∀ name, request ≠ .cache (.columns name) := by
      intro request hrequest
      refine ⟨fun htarget => ?_, fun name hname => ?_⟩
      · exact absurd (Request.target?_of_observes hrequest htarget) (by decide)
      · rw [hname] at hrequest
        cases hrequest
    refine attempt_bind_tabled (standard_heeds caller seen) hallows h hquiet hcut ?_
    intro past' done' hpassed hquiet' hrest
    exact ih _ (applyAll_end hs caller seen) hpassed hquiet' (hleading.grow (run_grows _ s)) hrest

end

/-! ## Runs -/

section

variable {resting : ω → ω → Prop} {starts : Option Nat → Prop} {n : Nat}
  {past : List (Recorded ω)} {leads : Placed → Prop}

theorem tabled_empty : Tabled env leads [] Memory.empty where
  rows := ⟨[], Entry.wideRows_empty, nofun⟩
  founder _ _ h := by simp [Memory.empty, Memory.table?] at h
  absent _ _ := inVain_of_not_calls nofun

/-- What is known of the tables at the end of a chronicle, if in every run the operations that come
first of their types lead where there is no table for them. -/
theorem Chronicle.tabled (h : Chronicle env resting starts n past s)
    (hleading : ∀ {n past} {s s' : Situation ω} {world start first},
      Chronicle env resting starts n past s → starts start →
      Program.run env.answer (Checkpoint.start start) ⟨world, s.memory, Cache.empty⟩ =
        (.ok first, s') → Leading leads (env.InTurn first) [] s.memory) :
    Tabled env leads past s.memory := by
  induction h with
  | empty world => exact tabled_empty
  | @run n past s world start done last interval rounds caller before _ allowed cut ih =>
    have hsound : Sound (⟨world, s.memory, Cache.empty⟩ : Situation ω) :=
      sound_of_wellFormed before.reachable.sound.memory world
    have htabled : Tabled env leads past
        (⟨world, s.memory, Cache.empty⟩ : Situation ω).memory := ih
    have hquiet : Quiet n past (⟨world, s.memory, Cache.empty⟩ : Situation ω).memory :=
      fun _ _ x hx _ => before.run_lt x hx
    have hallows : ∀ request : Request, request.isSettling →
        request.target? ≠ some .tables ∧ ∀ name, request ≠ .cache (.columns name) := by
      intro request hrequest
      cases request with
      | store request =>
        cases request with
        | config | putConfig => exact ⟨nofun, nofun⟩
        | _ => cases hrequest
      | node | cache => cases hrequest
      | cancelled => exact ⟨nofun, nofun⟩
    have hlaunch : launch ⟨interval, Observer.standard caller⟩ start rounds = _ :=
      Program.bind_eq_attempt_bind _ _
    rw [hlaunch] at cut
    refine attempt_bind_tabled (start_heeds start) hallows htabled hquiet cut ?_
    intro past' done' htabled' hquiet' hrest
    cases hrun : Program.run env.answer (Checkpoint.start start)
      ⟨world, s.memory, Cache.empty⟩ with
    | mk r s' =>
      rw [hrun] at htabled' hquiet' hrest
      cases r with
      | error e => simp [Program.stages] at hrest
      | ok first =>
        have hgrows : s.memory.Grows (Program.run env.answer (Checkpoint.start start)
            ⟨world, s.memory, Cache.empty⟩).2.memory := run_grows _ ⟨world, s.memory, Cache.empty⟩
        have hstart : Keeps (Frame.plain env) (Checkpoint.start start) (fun _ _ => True)
          ⟨world, s.memory, Cache.empty⟩ := start_keeps ⟨trivial, hsound⟩ start
        have hend := (Program.ensures_iff.1 hstart).2.1
        rw [hrun] at hgrows hend
        exact (scan_anatomy env interval caller .none rounds).tabled hend.sound htabled' hquiet'
          ((hleading before allowed hrun).grow hgrows) hrest

/-- The runs of a chronicle come one after the other. -/
theorem Chronicle.pairwise_run_le (h : Chronicle env resting starts n past s) :
    past.Pairwise fun x y => x.run ≤ y.run := by
  induction h with
  | empty world => exact List.Pairwise.nil
  | @run n past s world start done last interval rounds caller before _ _ cut ih =>
    have hrun : ∀ x ∈ (done ++ [last]).map (⟨n, ·⟩ : Stage ω → Recorded ω), x.run = n := by
      intro x hx
      obtain ⟨stage, -, rfl⟩ := List.mem_map.1 hx
      rfl
    refine List.pairwise_append.2 ⟨ih, ?_, fun x hx y hy => ?_⟩
    · exact List.pairwise_of_forall_mem_list fun x hx y hy =>
        Nat.le_of_eq ((hrun x hx).trans (hrun y hy).symm)
    · rw [hrun y hy]
      exact Nat.le_of_lt (before.run_lt x hx)

end

end Scan

end ChainIndex
