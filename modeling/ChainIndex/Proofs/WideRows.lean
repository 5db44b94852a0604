import ChainIndex.Proofs.Steps
import Mathlib.Data.List.Nodup

/-!
# The rows of wide tables

A row of a wide table lies at the place of the operation that it was made for, and at no other,
whatever the chain has written under the names of the columns for the place. Where a list of entries
has been made on an empty store, every row comes from one of them, and no two rows of a table lie at
the same place.
-/

namespace ChainIndex

open Scan (Placed WideTable.name WideTable.columnsOf WideTable.row)
open Store (Memory)
open Store.Memory (HasPlace isAt keys_putEntry putEntry_of_none)

/-! ## Places -/

/-- A row lies at one place. -/
def LiesAt (row : Row) (transaction : String) (index : Int) : Prop :=
  ∀ transaction' index', isAt transaction' index' row ↔ transaction' = transaction ∧ index' = index

/-- The columns that a payload founds have different names. -/
theorem nodup_columnsOf (p : Payload) : ((WideTable.columnsOf p).map (·.name)).Nodup := by
  have hkeys := p.keys_nodup
  rwa [Payload.keys, show p.members.map (·.1) = (WideTable.columnsOf p).map (·.name) by
    simp [WideTable.columnsOf]] at hkeys

/-- A row has one cell of a name. -/
theorem cell_unique {columns : List Column} (hnames : (columns.map (·.name)).Nodup) {p : Payload}
    {cell cell' : String × Cell} (h : cell ∈ WideTable.row columns p)
    (h' : cell' ∈ WideTable.row columns p) (hname : cell.1 = cell'.1) : cell = cell' := by
  obtain ⟨column, hcolumn, hcell⟩ := List.mem_filterMap.1 h
  obtain ⟨column', hcolumn', hcell'⟩ := List.mem_filterMap.1 h'
  obtain ⟨value, hvalue, rfl⟩ := Option.map_eq_some_iff.1 hcell
  obtain ⟨value', hvalue', rfl⟩ := Option.map_eq_some_iff.1 hcell'
  have hsame := List.inj_on_of_nodup_map hnames hcolumn hcolumn' hname
  subst hsame
  rw [hvalue] at hvalue'
  cases hvalue'
  rfl

/-- The row of a payload lies at the place of the payload. -/
theorem liesAt_row {columns : List Column} (hnames : (columns.map (·.name)).Nodup)
    (hcolumns : HasPlace columns) {p : Payload} {transaction : String} {index : Nat}
    (hp : Entry.PlacedAt p transaction index) (hindex : (index : Int) ≤ int64Max) :
    LiesAt (WideTable.row columns p) transaction index := by
  have hat := Entry.isAt_row hcolumns hp hindex
  rw [Entry.position_eq hindex] at hat
  intro transaction' index'
  refine ⟨fun hat' => ?_, fun ⟨htransaction, hindex⟩ => by rwa [htransaction, hindex]⟩
  simp only [isAt, Bool.and_eq_true, List.any_eq_true, beq_iff_eq] at hat hat'
  obtain ⟨⟨cell, hcell, hname, htransaction⟩, cell₁, hcell₁, hname₁, hindex₁⟩ := hat
  obtain ⟨⟨cell', hcell', hname', htransaction'⟩, cell₁', hcell₁', hname₁', hindex₁'⟩ := hat'
  rw [cell_unique hnames hcell' hcell (hname'.trans hname.symm), htransaction] at htransaction'
  rw [cell_unique hnames hcell₁' hcell₁ (hname₁'.trans hname₁.symm), hindex₁] at hindex₁'
  cases htransaction'
  cases hindex₁'
  exact ⟨rfl, rfl⟩

/-! ## Tables -/

namespace Entry

/-- What is known of the tables of a store on which entries have been made. -/
structure WideRows (es : List Entry) (m : Memory) : Prop where
  names : (m.tables.map (·.1)).Nodup
  columns : ∀ name t, m.table? name = some t → (t.columns.map (·.name)).Nodup
  origin : ∀ name t, m.table? name = some t → ∀ row ∈ t.rows,
    ∃ op, .row op ∈ es ∧ WideTable.name op.typeName = name ∧
      row = WideTable.row t.columns op.payload ∧ LiesAt row op.transaction op.index
  apart : ∀ name t, m.table? name = some t → t.rows.Pairwise fun row row' =>
    ∀ transaction index, isAt transaction index row → ¬isAt transaction index row'

variable {seen es : List Entry} {entry : Entry} {m m' : Memory}

theorem wideRows_empty : WideRows [] Memory.empty where
  names := List.nodup_nil
  columns _ _ h := by simp [Memory.empty, Memory.table?] at h
  origin _ _ h := by simp [Memory.empty, Memory.table?] at h
  apart _ _ h := by simp [Memory.empty, Memory.table?] at h

/-- More entries may have been made, if the tables are the same. -/
theorem WideRows.congr (h : WideRows seen m) (htables : m'.tables = m.tables) :
    WideRows (seen ++ es) m' := by
  have htable : ∀ name, m'.table? name = m.table? name := by
    intro name
    rw [Memory.table?, Memory.table?, htables]
  constructor
  · rw [htables]
    exact h.names
  · intro name t ht
    exact h.columns name t (by rwa [← htable])
  · intro name t ht row hrow
    obtain ⟨op, hop, hplace⟩ := h.origin name t (by rwa [← htable]) row hrow
    exact ⟨op, List.mem_append_left _ hop, hplace⟩
  · intro name t ht
    exact h.apart name t (by rwa [← htable])

theorem WideRows.of_tables (h : WideRows seen m) (htables : m'.tables = m.tables) :
    WideRows seen m' := by
  have hsame : WideRows (seen ++ []) m' := h.congr htables
  rwa [List.append_nil] at hsame

/-- A table that is put under a name has to be as the others are. -/
theorem WideRows.put (h : WideRows seen m) {name : String} {t : Store.Table}
    (hcolumns : (t.columns.map (·.name)).Nodup)
    (horigin : ∀ row ∈ t.rows, ∃ op, .row op ∈ seen ++ es ∧ WideTable.name op.typeName = name ∧
      row = WideTable.row t.columns op.payload ∧ LiesAt row op.transaction op.index)
    (hapart : t.rows.Pairwise fun row row' =>
      ∀ transaction index, isAt transaction index row → ¬isAt transaction index row') :
    WideRows (seen ++ es) { m with tables := Store.Memory.putEntry name t m.tables } := by
  have hself : ∀ t', Memory.table? { m with tables := Store.Memory.putEntry name t m.tables } name =
      some t' → t' = t := by
    intro t' ht'
    rw [Memory.table?, Store.Memory.lookup_putEntry_self] at ht'
    exact (Option.some.inj ht').symm
  have hother : ∀ {other t'}, other ≠ name →
      Memory.table? { m with tables := Store.Memory.putEntry name t m.tables } other = some t' →
      m.table? other = some t' := by
    intro other t' hne ht'
    rwa [Memory.table?, Store.Memory.lookup_putEntry_of_ne _ _ hne] at ht'
  constructor
  · rw [keys_putEntry]
    exact Store.Memory.nodup_ite h.names id
  · intro other t' ht'
    by_cases hname : other = name
    · subst hname
      rw [hself t' ht']
      exact hcolumns
    · exact h.columns other t' (hother hname ht')
  · intro other t' ht' row hrow
    by_cases hname : other = name
    · subst hname
      obtain rfl := hself t' ht'
      exact horigin row hrow
    · obtain ⟨op, hop, hplace⟩ := h.origin other t' (hother hname ht') row hrow
      exact ⟨op, List.mem_append_left _ hop, hplace⟩
  · intro other t' ht'
    by_cases hname : other = name
    · subst hname
      rw [hself t' ht']
      exact hapart
    · exact h.apart other t' (hother hname ht')

/-- The table of an operation has different columns. -/
theorem WideRows.nodup_tableFor (h : WideRows seen m) (op : Placed) :
    ((tableFor m op).columns.map (·.name)).Nodup := by
  unfold tableFor
  cases htable : m.table? (WideTable.name op.typeName) with
  | none => exact nodup_columnsOf op.payload
  | some t => exact h.columns _ t htable

/-- Its rows come from where the rows of tables come from. -/
theorem WideRows.of_mem_tableFor (h : WideRows seen m) {op : Placed} {row : Row}
    (hrow : row ∈ (tableFor m op).rows) :
    ∃ op', .row op' ∈ seen ∧ WideTable.name op'.typeName = WideTable.name op.typeName ∧
      row = WideTable.row (tableFor m op).columns op'.payload ∧
      LiesAt row op'.transaction op'.index := by
  unfold tableFor at hrow ⊢
  cases htable : m.table? (WideTable.name op.typeName) with
  | none => simp [htable] at hrow
  | some t =>
    rw [htable] at hrow
    exact h.origin _ t htable row hrow

theorem WideRows.apart_tableFor (h : WideRows seen m) (op : Placed) :
    (tableFor m op).rows.Pairwise fun row row' =>
      ∀ transaction index, isAt transaction index row → ¬isAt transaction index row' := by
  unfold tableFor
  cases htable : m.table? (WideTable.name op.typeName) with
  | none => exact List.Pairwise.nil
  | some t => exact h.apart _ t htable

/-- Every step keeps what is known of the tables. -/
theorem WideRows.step (hm : m.WellFormed) (hfits : entry.Fits) (hstep : Step entry m m')
    (h : WideRows seen m) : WideRows (seen ++ [entry]) m' := by
  cases hstep with
  | @table typeName sample _ hfree =>
    rw [← putEntry_of_none hfree]
    exact h.put (nodup_columnsOf sample) (fun _ hrow => by cases hrow) List.Pairwise.nil
  | @row op _ hfree =>
    obtain ⟨hplaced, hindex⟩ := hfits
    have hlies := liesAt_row (h.nodup_tableFor op) (tableFor_hasPlace hm ⟨hplaced, hindex⟩)
      hplaced hindex
    refine h.put (h.nodup_tableFor op) (fun row hrow => ?_)
      (List.pairwise_append.2 ⟨h.apart_tableFor op, List.pairwise_singleton _ _, ?_⟩)
    · rcases List.mem_append.1 hrow with hrow | hrow
      · obtain ⟨op', hop', hplace⟩ := h.of_mem_tableFor hrow
        exact ⟨op', List.mem_append_left _ hop', hplace⟩
      · rw [List.mem_singleton.1 hrow]
        exact ⟨op, by simp, rfl, rfl, hlies⟩
    · -- the new row is at a place where no row was
      intro row hrow row' hrow' transaction index hat hat'
      rw [List.mem_singleton.1 hrow'] at hat'
      obtain ⟨rfl, rfl⟩ := (hlies transaction index).1 hat'
      rw [position_eq hindex] at hfree
      exact Bool.eq_false_iff.1 hfree (List.any_eq_true.2 ⟨row, hrow, hat⟩)
  | derived _ hsame =>
    have htables := congrArg Memory.tables hsame
    exact h.congr htables
  | _ => exact h.congr rfl

/-- So it is known of the tables of every store on which entries have been made. -/
theorem wideRows_of_enterAll (hfits : ∀ entry ∈ es, entry.Fits)
    (h : enterAll es Memory.empty = (.ok (), m)) : WideRows es m :=
  enterAll_carries WideRows.step Memory.wellFormed_empty hfits h wideRows_empty

end Entry

end ChainIndex
