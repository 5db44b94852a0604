import ChainIndex.Proofs.FirstOperations
import ChainIndex.Proofs.TableNames

/-!
# Wide tables

The table of an operation type is founded by the first payload of the type that is handed over to be
stored, keeps the columns of that payload whatever comes later, and has one row for each operation
it stores, at the true place of the operation. A run may break off before the table is there. Then
the next one hands over the same payload first, unless blocks have changed or it is told where to
start: nothing is left of the payload, and another one founds the table.
-/

namespace ChainIndex

open Scan (Placed WideTable.name WideTable.columnsOf WideTable.row)
open Store (Memory)
open Store.Memory (HasPlace isAt lookup_of_mem)

namespace Scan

variable {ω : Type} {env : Surroundings ω} {s : Situation ω}

/-! ## Columns and rows -/

section

variable {n : Nat} {past : List (Recorded ω)} {columns : List Column} {p : Payload} {op : Placed}

/-- The columns of a table are the keys of a payload, for integers where the payload has them. -/
structure ColumnsFrom (p : Payload) (columns : List Column) : Prop where
  names : columns.map (·.name) = p.keys
  kinds : ∀ column ∈ columns, column.kind = .bigInt ↔ ∃ n, p.get? column.name = some (.int n)

theorem columnsFrom_columnsOf (p : Payload) : ColumnsFrom p (WideTable.columnsOf p) where
  names := by simp [WideTable.columnsOf, Payload.keys]
  kinds column hcolumn := by
    obtain ⟨⟨key, value⟩, hmem, rfl⟩ := List.mem_map.1 hcolumn
    have hvalue : p.get? key = some value := lookup_of_mem p.keys_nodup hmem
    show WideTable.kindOf value = .bigInt ↔ ∃ n, p.get? key = some (.int n)
    rw [hvalue]
    cases value <;> simp [WideTable.kindOf, Json.isInteger]

/-- A row fills some of the columns, in their order and with cells of their kinds. -/
theorem sublist_row (columns : List Column) (p : Payload) :
    ((WideTable.row columns p).map fun cell => (⟨cell.1, cell.2.kind⟩ : Column)).Sublist
      columns := by
  induction columns with
  | nil => exact List.Sublist.refl _
  | cons column rest ih =>
    have hkind : ∀ value, (WideTable.cell column.kind value).kind = column.kind := by
      intro value
      cases column with
      | mk name kind => cases kind <;> rfl
    cases hvalue : p.get? column.name with
    | none =>
      have hrow : WideTable.row (column :: rest) p = WideTable.row rest p := by
        simp [WideTable.row, hvalue]
      rw [hrow]
      exact ih.cons column
    | some value =>
      have hrow : WideTable.row (column :: rest) p =
          (column.name, WideTable.cell column.kind value) :: WideTable.row rest p := by
        simp [WideTable.row, hvalue]
      rw [hrow, List.map_cons, hkind]
      exact ih.cons_cons column

/-- What a row says under the name of a column. -/
theorem lookup_row (hnames : (columns.map (·.name)).Nodup) {column : Column}
    (hcolumn : column ∈ columns) {value : Json} (hvalue : p.get? column.name = some value) :
    (WideTable.row columns p).lookup column.name =
      some (WideTable.cell column.kind value) := by
  refine lookup_of_mem ?_ (List.mem_filterMap.2 ⟨column, hcolumn, by rw [hvalue]; rfl⟩)
  have hsub := (sublist_row columns p).map (·.name)
  rw [List.map_map] at hsub
  exact hsub.nodup hnames

/-- An operation that a node tells of has its type's name, and its payload says where it is. -/
theorem Surroundings.Tells.payload (h : env.Tells op) :
    op.typeName = Operation.typeName op.typeCode ∧
      op.payload.get? "block_num" = some (Json.ofNat op.blockNumber) ∧
      Entry.PlacedAt op.payload op.transaction op.index := by
  obtain ⟨_, b, tx, raw, code, p, -, -, -, -, hop⟩ := h
  rw [hop]
  exact ⟨rfl, Entry.get?_locate _ _ _ _, Entry.placedAt_locate _ _ _ _⟩

/-! ## The first payload -/

/-- At this stage an operation of a type is handed over to be stored that the node has told of. -/
structure Recorded.Hands (env : Surroundings ω) (code : Int) (x : Recorded ω) (op : Placed) :
    Prop where
  presents : x.Presents op
  told : env.Tells op
  type : op.typeCode = code

/-- At a stage of the past an operation of a type is handed over, for the first time. -/
structure HandedFirst (env : Surroundings ω) (code : Int) (past earlier : List (Recorded ω))
    (x : Recorded ω) (later : List (Recorded ω)) (op : Placed) : Prop where
  parts : past = earlier ++ x :: later
  hands : x.Hands env code op
  none : ∀ y ∈ earlier, ∀ op', ¬y.Hands env code op'

variable {code : Int} {earlier later : List (Recorded ω)} {x : Recorded ω}

/-- The name of a table tells the type of the operation that is handed over. -/
theorem Recorded.Presents.hands (h : x.Presents op) (htold : env.Tells op)
    (hname : WideTable.name op.typeName = WideTable.name (Operation.typeName code)) :
    x.Hands env code op := by
  rw [htold.payload.1] at hname
  exact ⟨h, htold, WideTable.name_typeName_injective hname⟩

theorem Recorded.Hands.calls (h : x.Hands env code op) :
    x.Calls (WideTable.name (Operation.typeName code)) := by
  have hcalls := h.presents.calls
  rwa [h.told.payload.1, h.type] at hcalls

/-- If operations of a type are handed over, one of them is the first. -/
theorem exists_handedFirst (hx : x ∈ past) (h : x.Hands env code op) :
    ∃ earlier x later op, HandedFirst env code past earlier x later op := by
  classical
  have hsome : (past.find? fun x => ∃ op, x.Hands env code op).isSome :=
    List.find?_isSome.2 ⟨x, hx, decide_eq_true ⟨op, h⟩⟩
  obtain ⟨y, hy⟩ := Option.isSome_iff_exists.1 hsome
  obtain ⟨hfound, earlier, later, hpast, hnone⟩ := List.find?_eq_some_iff_append.1 hy
  obtain ⟨op, hop⟩ := of_decide_eq_true hfound
  refine ⟨earlier, y, later, op, hpast, hop, fun z hz op' hop' => ?_⟩
  have hnot := hnone z hz
  rw [decide_eq_true ⟨op', hop'⟩] at hnot
  cases hnot

/-- What is handed over first stays the first. -/
theorem HandedFirst.append (h : HandedFirst env code past earlier x later op)
    (more : List (Recorded ω)) :
    HandedFirst env code (past ++ more) earlier x (later ++ more) op where
  parts := by rw [h.parts, List.append_assoc, List.cons_append]
  hands := h.hands
  none := h.none

/-- Whatever is handed over is handed over at the first time or after it. -/
theorem HandedFirst.same_or_earlier (h : HandedFirst env code past earlier x later op)
    {earlier' later' : List (Recorded ω)} {x' : Recorded ω} {op' : Placed}
    (hpast : past = earlier' ++ x' :: later') (hx' : x'.Hands env code op') :
    x = x' ∨ ∃ between, earlier' = earlier ++ x :: between ∧ later = between ++ x' :: later' := by
  rcases List.append_eq_append_iff.1 (h.parts.symm.trans hpast) with
    ⟨between, hearlier, hlater⟩ | ⟨between, hearlier, hlater⟩
  · cases between with
    | nil => exact .inl (List.cons_eq_cons.1 hlater).1
    | cons y between =>
      obtain ⟨rfl, hrest⟩ := List.cons_eq_cons.1 hlater
      exact .inr ⟨between, hearlier, hrest⟩
  · cases between with
    | nil => exact .inl (List.cons_eq_cons.1 hlater).1.symm
    | cons y between =>
      obtain ⟨rfl, -⟩ := List.cons_eq_cons.1 hlater
      exact absurd hx' (h.none x' (by simp [hearlier]) op')

/-- What is handed over at one stage tells the same columns. -/
theorem Recorded.Hands.columns_eq {op' : Placed} (h : x.Hands env code op)
    (h' : x.Hands env code op') :
    WideTable.columnsOf op.payload = WideTable.columnsOf op'.payload :=
  Option.some.inj (h.presents.columns.symm.trans h'.presents.columns)

/-- Where only the first operation of a type in a chain leads, the first operation that is handed
over tells the columns. -/
theorem Tabled.columns_eq {leads : Placed → Prop} {m : Memory} (h : Tabled env leads past m)
    {blocks : Nat → Block} (hleads : ∀ op, leads op → Foremost blocks op) {t : Store.Table}
    (ht : m.table? (WideTable.name (Operation.typeName code)) = some t)
    (hfirst : HandedFirst env code past earlier x later op) :
    t.columns = WideTable.columnsOf op.payload := by
  obtain ⟨earlier', x', later', founder, hpast, hx', htold, hname, hcolumns, hvain⟩ :=
    h.founder _ t ht
  have hcalls := hx'.calls
  rw [hname] at hcalls
  -- the founder is not handed over before the first
  have hmem : x ∈ earlier' ++ [x'] := by
    rcases hfirst.same_or_earlier hpast (hx'.hands htold hname) with rfl | ⟨between, rfl, -⟩
    · simp
    · simp
  obtain ⟨op₁, hpresents₁, hleads₁⟩ := hvain.leading x hmem hfirst.hands.calls
  obtain ⟨op₂, hpresents₂, hleads₂⟩ := hvain.leading x' (by simp) hcalls
  have hsame : op₁ = op₂ := (hleads _ hleads₁).unique (hleads _ hleads₂)
    ((hpresents₁.calls.unique hfirst.hands.calls).trans (hcalls.unique hpresents₂.calls))
  subst hsame
  rw [hcolumns]
  exact Option.some.inj (hx'.columns.symm.trans (hpresents₂.columns.trans
    (hpresents₁.columns.symm.trans hfirst.hands.presents.columns)))

/-! ## Tables -/

/-- The table of an operation type after some runs. -/
structure TableOf (env : Surroundings ω) (starts : Option Nat → Prop) (past : List (Recorded ω))
    (code : Int) (t : Store.Table) : Prop where
  handed : ∃ earlier x later op, HandedFirst env code past earlier x later op
  /-- The columns are those of the first payload of the type that has ever been handed over, if the
  run did anything else after that than to look for the table or to found it, or if blocks do not
  change and runs start after the checkpoint. -/
  first : ∀ earlier x later op, HandedFirst env code past earlier x later op →
    (∃ y ∈ later, y.run = x.run ∧ ¬y.Seeks (WideTable.name (Operation.typeName code))) ∨
      ((∃ blocks, env.FixedBlocks blocks) ∧ ∀ start, starts start → start = none) →
    ColumnsFrom op.payload t.columns
  /-- In any case they are those of a payload that was handed over. Only runs that broke off before
  the table was there may have been handed others before. -/
  founder : ∃ earlier x later op, past = earlier ++ x :: later ∧ x.Hands env code op ∧
    ColumnsFrom op.payload t.columns ∧
    ∀ before y between op', earlier = before ++ y :: between → y.Hands env code op' →
      y.run < x.run ∧ ∀ z ∈ between, z.run = y.run →
        z.Seeks (WideTable.name (Operation.typeName code))
  names : (t.columns.map (·.name)).Nodup
  place : (⟨"txid", .text⟩ : Column) ∈ t.columns ∧ (⟨"index_in_tx", .bigInt⟩ : Column) ∈ t.columns ∧
    (⟨"block_num", .bigInt⟩ : Column) ∈ t.columns
  /-- Wherever the table has been there, it has had these columns. -/
  kept : ∀ x ∈ past, ∀ t',
    x.stage.after.memory.table? (WideTable.name (Operation.typeName code)) = some t' →
      t'.columns = t.columns
  /-- A row fills some of the columns in their order, with cells of their kinds. -/
  shape : ∀ row ∈ t.rows,
    (row.map fun cell => (⟨cell.1, cell.2.kind⟩ : Column)).Sublist t.columns
  apart : t.rows.Pairwise fun row row' =>
    ¬(row.lookup "txid" = row'.lookup "txid" ∧
      row.lookup "index_in_tx" = row'.lookup "index_in_tx")
  /-- A row says where an operation of the type is, which has been handed over. -/
  origin : ∀ row ∈ t.rows, ∃ op, Handed env past op ∧ op.typeCode = code ∧
    row = WideTable.row t.columns op.payload ∧
    row.lookup "txid" = some (.text (some op.transaction)) ∧
    row.lookup "index_in_tx" = some (.bigInt (some op.index)) ∧
    row.lookup "block_num" = some (.bigInt (some op.blockNumber))

/-- Rows that lie apart do not say that they are at the same place. -/
theorem lookup_ne_of_apart {row row' : Row} {transaction : String} {index : Int}
    (hapart : ∀ transaction index, isAt transaction index row → ¬isAt transaction index row')
    (htransaction : row.lookup "txid" = some (.text (some transaction)))
    (hindex : row.lookup "index_in_tx" = some (.bigInt (some index))) :
    ¬(row.lookup "txid" = row'.lookup "txid" ∧
      row.lookup "index_in_tx" = row'.lookup "index_in_tx") := by
  have hat : ∀ {row : Row}, row.lookup "txid" = some (.text (some transaction)) →
      row.lookup "index_in_tx" = some (.bigInt (some index)) → isAt transaction index row := by
    intro row htransaction hindex
    obtain ⟨before, after, hrow, -⟩ := List.lookup_eq_some_iff.1 htransaction
    obtain ⟨before', after', hrow', -⟩ := List.lookup_eq_some_iff.1 hindex
    unfold isAt
    rw [Bool.and_eq_true, List.any_eq_true, List.any_eq_true]
    exact ⟨⟨_, hrow ▸ List.mem_append_right _ List.mem_cons_self, by simp⟩,
      ⟨_, hrow' ▸ List.mem_append_right _ List.mem_cons_self, by simp⟩⟩
  rintro ⟨hsame, hsame'⟩
  exact hapart _ _ (hat htransaction hindex)
    (hat (hsame ▸ htransaction) (hsame' ▸ hindex))

end

/-- The first payload of a type, and the payload that has founded its table. -/
theorem Chronicle.founded {resting : ω → ω → Prop} {starts : Option Nat → Prop} {n : Nat}
    {past : List (Recorded ω)} (h : Chronicle env resting starts n past s) {code : Int}
    {t : Store.Table}
    (ht : s.memory.table? (WideTable.name (Operation.typeName code)) = some t) :
    ∃ earlier x later op, past = earlier ++ x :: later ∧ x.Hands env code op ∧
      t.columns = WideTable.columnsOf op.payload ∧
      ∀ before y between op', earlier = before ++ y :: between → y.Hands env code op' →
        y.run < x.run ∧ ∀ z ∈ between, z.run = y.run →
          z.Seeks (WideTable.name (Operation.typeName code)) := by
  obtain ⟨earlier, x, later, op, hpast, hpresents, htold, hname, hcolumns, hvain⟩ :=
    h.tabled_in_order.founder _ t ht
  have hx : x.Hands env code op := hpresents.hands htold hname
  refine ⟨earlier, x, later, op, hpast, hx, hcolumns, ?_⟩
  rintro before y between op' rfl hy
  have hseeking := hvain.seeking
  rw [List.append_assoc, List.cons_append] at hseeking
  obtain ⟨-, hlater, -⟩ := List.pairwise_append.1 hseeking
  have hseeks := (List.pairwise_cons.1 hlater).1
  refine ⟨?_, fun z hz hsame => hseeks z (by simp [hz]) hy.calls hsame⟩
  -- the founder does not only look for the table
  have hruns := h.pairwise_run_le
  rw [hpast, List.append_assoc, List.cons_append] at hruns
  obtain ⟨-, hruns, -⟩ := List.pairwise_append.1 hruns
  refine Nat.lt_of_le_of_ne ((List.pairwise_cons.1 hruns).1 x (by simp)) fun hsame => ?_
  exact (hseeks x (by simp) hy.calls hsame.symm).not_calls _ hx.calls

/-- The first operation that is handed over tells the columns if its run went on once it had looked
for the table. -/
theorem Chronicle.columns_eq {resting : ω → ω → Prop} {starts : Option Nat → Prop} {n : Nat}
    {past earlier later : List (Recorded ω)} (h : Chronicle env resting starts n past s)
    {code : Int} {t : Store.Table}
    (ht : s.memory.table? (WideTable.name (Operation.typeName code)) = some t) {x y : Recorded ω}
    {op : Placed} (hfirst : HandedFirst env code past earlier x later op) (hy : y ∈ later)
    (hrun : y.run = x.run) (hnot : ¬y.Seeks (WideTable.name (Operation.typeName code))) :
    t.columns = WideTable.columnsOf op.payload := by
  obtain ⟨earlier', x', later', founder, hpast, hx', hcolumns, hvain⟩ := h.founded ht
  rcases hfirst.same_or_earlier hpast hx' with rfl | ⟨between, rfl, rfl⟩
  · rw [hcolumns]
    exact hx'.columns_eq hfirst.hands
  · obtain ⟨hbefore, hseeks⟩ := hvain _ x between op rfl hfirst.hands
    rcases List.mem_append.1 hy with hy | hy
    · exact absurd (hseeks y hy hrun) hnot
    · -- this is a later run
      have hruns := h.pairwise_run_le
      rw [hpast] at hruns
      obtain ⟨-, hruns, -⟩ := List.pairwise_append.1 hruns
      have hafter : x'.run ≤ y.run := by
        rcases List.mem_cons.1 hy with rfl | hy
        · exact Nat.le_refl _
        · exact (List.pairwise_cons.1 hruns).1 y hy
      omega

/-- Whatever the node answers, and wherever runs break off: the table of an operation type has the
columns of a payload of the type that was handed over to be stored, the first one unless its run
broke off before the table was there and later runs were given other blocks, with the place of
operations among them, and never changes them. Its rows fill these columns, and each of them is at
the true place of an operation of the type and at no other's, whatever the payload of the operation
says under these names. -/
theorem wide_tables_keep_shape_and_place {resting : ω → ω → Prop} {starts : Option Nat → Prop}
    {n : Nat} {past : List (Recorded ω)} (h : Chronicle env resting starts n past s) (code : Int)
    (t : Store.Table)
    (ht : s.memory.table? (WideTable.name (Operation.typeName code)) = some t) :
    TableOf env starts past code t := by
  obtain ⟨es, hrows, hhanded⟩ := h.tabled_in_order.rows
  have hnames := hrows.columns _ t ht
  obtain ⟨earlier, x, later, founder, hpast, hx, hcolumns, hvain⟩ := h.founded ht
  have hplace : (⟨"txid", .text⟩ : Column) ∈ t.columns ∧
      (⟨"index_in_tx", .bigInt⟩ : Column) ∈ t.columns ∧
      (⟨"block_num", .bigInt⟩ : Column) ∈ t.columns := by
    obtain ⟨-, hblock, hplaced⟩ := hx.told.payload
    rw [hcolumns]
    exact ⟨hplaced.hasPlace.1, hplaced.hasPlace.2, Entry.mem_columnsOf hblock⟩
  have horigin : ∀ row ∈ t.rows, ∃ op, Handed env past op ∧ op.typeCode = code ∧
      row = WideTable.row t.columns op.payload ∧
      row.lookup "txid" = some (.text (some op.transaction)) ∧
      row.lookup "index_in_tx" = some (.bigInt (some op.index)) ∧
      row.lookup "block_num" = some (.bigInt (some op.blockNumber)) := by
    intro row hrow
    obtain ⟨op, hop, hname, rfl, -⟩ := hrows.origin _ t ht row hrow
    have hthis := hhanded op hop
    obtain ⟨htype, hblock, hplaced⟩ := hthis.told.payload
    rw [htype] at hname
    refine ⟨op, hthis, WideTable.name_typeName_injective hname, rfl, ?_, ?_, ?_⟩
    · rw [lookup_row hnames hplace.1 hplaced.transaction]
      rfl
    · rw [lookup_row hnames hplace.2.1 hplaced.position]
      exact congrArg (fun n => some (Cell.bigInt n)) (Entry.integer?_ofNat hthis.index)
    · rw [lookup_row hnames hplace.2.2 hblock]
      exact congrArg (fun n => some (Cell.bigInt n)) (Entry.integer?_ofNat hthis.number)
  refine ⟨exists_handedFirst (by simp [hpast]) hx, fun earlier x later op hfirst hlasting => ?_,
    ⟨earlier, x, later, founder, hpast, hx, ?_, hvain⟩, hnames, hplace, fun y hy t' ht' => ?_,
    fun row hrow => ?_, ?_, horigin⟩
  · have hsame : t.columns = WideTable.columnsOf op.payload := by
      rcases hlasting with ⟨y, hy, hrun, hnot⟩ | ⟨⟨blocks, hfixed⟩, hstarts⟩
      · exact h.columns_eq ht hfirst hy hrun hnot
      · exact h.tabled_in_order.columns_eq (fun op hleads => hleads blocks hfixed hstarts) ht hfirst
    rw [hsame]
    exact columnsFrom_columnsOf op.payload
  · rw [hcolumns]
    exact columnsFrom_columnsOf founder.payload
  · obtain ⟨t₁, ht₁, hsame, -⟩ := (h.grows y hy).table _ t' ht'
    cases ht.symm.trans ht₁
    exact hsame.symm
  · obtain ⟨op, -, -, hrow, -⟩ := horigin row hrow
    rw [hrow]
    exact sublist_row _ _
  · refine (hrows.apart _ t ht).imp_of_mem fun hrow _ hapart => ?_
    obtain ⟨op, -, -, -, htransaction, hindex, -⟩ := horigin _ hrow
    exact lookup_ne_of_apart hapart htransaction hindex

/-- A block with a transfer that says to be somewhere else. -/
def displaced : Block :=
  let transfer : Json := .arr [.int 0, .obj [
    ("amount", .int 5), ("block_num", .null), ("index_in_tx", .str "first"), ("txid", .int 7)]]
  { number := 1, transactions := [{ id := "tx", operations := [transfer] }] }

/-- Surroundings in which there is this block. -/
def besideDisplaced : Surroundings Unit := .steady (.lone displaced (.node "closed"))

/-- How things stand at the moments of a run there. -/
def displacedMoments : List (Situation Unit) :=
  (launch ⟨1, Observer.standard "caller"⟩ none 1).moments besideDisplaced.answer
    ⟨(), Memory.empty, Cache.empty⟩

/-- The run has come to its end. -/
def displacedStored : Situation Unit :=
  displacedMoments.getLastD ⟨(), Memory.empty, Cache.empty⟩

theorem wide_tables_keep_shape_and_place_of_displaced :
    ∃ n past t, Chronicle besideDisplaced (fun _ _ => True) (· = none) n past displacedStored ∧
      displacedStored.memory.table? (WideTable.name (Operation.typeName 0)) = some t ∧
      t.rows.length = 1 ∧ TableOf besideDisplaced (· = none) past 0 t ∧
      ∃ earlier x later op, HandedFirst besideDisplaced 0 past earlier x later op ∧
        ColumnsFrom op.payload t.columns := by
  have hsome : displacedMoments ≠ [] := by decide +kernel
  have hmoment : displacedStored ∈ displacedMoments := Program.getLastD_mem_of_ne_nil _ hsome
  have hreachable : Reachable besideDisplaced (fun _ _ => True) (· = none) displacedStored :=
    .run 1 1 "caller" (.empty ()) trivial rfl hmoment
  obtain ⟨n, past, hpast⟩ := hreachable.chronicle
  have hrows : (displacedStored.memory.table? (WideTable.name (Operation.typeName 0))).map
      (·.rows.length) = some 1 := by
    decide +kernel
  obtain ⟨t, ht, hlength⟩ := Option.map_eq_some_iff.1 hrows
  have htable := wide_tables_keep_shape_and_place hpast 0 t ht
  have hfixed : besideDisplaced.FixedBlocks fun _ => displaced := by
    intro number world b hreply
    have hfound : (if number = 1 then some displaced else none) = some b := Except.ok.inj hreply
    split at hfound
    · exact (Option.some.inj hfound).symm
    · cases hfound
  obtain ⟨earlier, x, later, op, hop⟩ := htable.handed
  exact ⟨n, past, t, hpast, ht, hlength, htable, earlier, x, later, op, hop,
    htable.first _ _ _ _ hop (.inr ⟨⟨_, hfixed⟩, fun _ => id⟩)⟩

/-! ## Payloads that leave no trace -/

/-- As long as its table is not there, an operation of a type is handed over wherever the columns of
the table are called for. -/
theorem Chronicle.hands_of_calls {resting : ω → ω → Prop} {starts : Option Nat → Prop} {n : Nat}
    {past : List (Recorded ω)} (h : Chronicle env resting starts n past s) {code : Int}
    (hnone : s.memory.table? (WideTable.name (Operation.typeName code)) = none)
    {x : Recorded ω} (hx : x ∈ past)
    (hcalls : x.Calls (WideTable.name (Operation.typeName code))) :
    ∃ op, x.Hands env code op := by
  have htabled : Tabled env env.Tells past s.memory := by
    refine h.tabled fun _ _ _ more op hdue _ _ => ?_
    obtain ⟨next, all, hbrings, hpart⟩ := hdue
    exact hbrings.tells (hpart.subset (by simp))
  obtain ⟨op, hpresents, htold⟩ := (htabled.absent _ hnone).leading x hx hcalls
  exact ⟨op, hpresents.hands htold (hpresents.calls.unique hcalls)⟩

/-- Two blocks, each with a transfer. -/
def transfers : List Block :=
  let transfer (key : String) (value : Json) : Json := .arr [.int 0, .obj [(key, value)]]
  [{ number := 1, transactions := [{ id := "first", operations := [transfer "amount" (.int 5)] }] },
    { number := 2,
      transactions := [{ id := "second", operations := [transfer "fee" (.str "x")] }] }]

/-- Surroundings in which there are these blocks, and the store fails the first time that it is
asked for a table. -/
def besideTransfers : Surroundings Bool where
  node
    | .block number, failed => (.ok (transfers.find? (·.number = number)), failed)
    | .receipts _, failed => (.ok [], failed)
    | .invoke _ _ _ _, failed => (.error (.node "closed"), failed)
    | .assets _ _, failed => (.error (.node "closed"), failed)
    | .balances _, failed => (.error (.node "closed"), failed)
  fault
    | .hasTable _, false => (some "closed", true)
    | _, failed => (none, failed)
  cancelled _ := false

/-- A run there of one block. -/
def scanBeside (start : Option Nat) : Procedure Position :=
  launch ⟨1, Observer.standard "caller"⟩ start 1

/-- The stages of the run that starts after the checkpoint. -/
def stagesBeside : List (Stage Bool) :=
  (scanBeside none).stages besideTransfers.answer ⟨false, Memory.empty, Cache.empty⟩

/-- It has broken off in the first block. -/
def brokenOff : Situation Bool :=
  (Program.run besideTransfers.answer (scanBeside none) ⟨false, Memory.empty, Cache.empty⟩).2

/-- The next run has been told to start with the second block. -/
def startedLater : Situation Bool :=
  (Program.run besideTransfers.answer (scanBeside (some 2))
    ⟨brokenOff.world, brokenOff.memory, Cache.empty⟩).2

/-- The run that breaks off is handed the first transfer. -/
theorem handedFirst_brokenOff :
    ∃ past, Chronicle besideTransfers (· = ·) (fun _ => True) 1 past brokenOff ∧
      ∃ earlier x later op, HandedFirst besideTransfers 0 past earlier x later op ∧
        op.payload.keys =
          ["amount", "block_num", "guarantee_id", "index_in_tx", "memo", "txid"] := by
  have hbroken : Chronicle besideTransfers (· = ·) (fun _ => True) 1
      ([] ++ stagesBeside.map (⟨0, ·⟩)) brokenOff :=
    .whole 1 1 "caller" (.empty false) rfl trivial (by decide +kernel)
  -- the columns are called for, but there is no table
  have hcalled : some (Request.cache (.columns (WideTable.name (Operation.typeName 0)))) ∈
      List.map (β := Option Request) (·.request?) stagesBeside := by
    decide +kernel
  have hnone : brokenOff.memory.table? (WideTable.name (Operation.typeName 0)) = none := by
    decide +kernel
  obtain ⟨y, hy, hcalls⟩ := List.mem_map.1 hcalled
  have hmem : (⟨0, y⟩ : Recorded Bool) ∈ [] ++ stagesBeside.map (⟨0, ·⟩) := List.mem_map_of_mem hy
  obtain ⟨_, hop⟩ := hbroken.hands_of_calls hnone hmem hcalls
  obtain ⟨earlier, x, later, op, hfirst⟩ := exists_handedFirst hmem hop
  refine ⟨_, hbroken, earlier, x, later, op, hfirst, ?_⟩
  -- whatever is handed over in this run has these keys
  have hcolumns : ∀ columns ∈ stagesBeside.filterMap (newColumns ·.task), columns.map (·.name) =
      ["amount", "block_num", "guarantee_id", "index_in_tx", "memo", "txid"] := by
    decide +kernel
  have hx : x ∈ earlier ++ x :: later := List.mem_append_right _ List.mem_cons_self
  rw [← hfirst.parts, List.nil_append] at hx
  obtain ⟨z, hz, rfl⟩ := List.mem_map.1 hx
  rw [← (columnsFrom_columnsOf op.payload).names]
  exact hcolumns _ (List.mem_filterMap.2 ⟨z, hz, hfirst.hands.presents.columns⟩)

/-- Where a run has broken off before the table was there, nothing is left of the first payload of
the type. The next run starts after it, and the table gets the columns of another one. -/
theorem first_payload_leaves_no_trace :
    ∃ n past t, Chronicle besideTransfers (· = ·) (fun _ => True) n past startedLater ∧
      startedLater.memory.table? (WideTable.name (Operation.typeName 0)) = some t ∧
      ∃ earlier x later op, HandedFirst besideTransfers 0 past earlier x later op ∧
        ¬ColumnsFrom op.payload t.columns := by
  obtain ⟨past, hbroken, earlier, x, later, op, hfirst, hkeys⟩ := handedFirst_brokenOff
  have hlater : Chronicle besideTransfers (· = ·) (fun _ => True) 2 _ startedLater :=
    hbroken.whole 1 1 "caller" rfl trivial (by decide +kernel)
  have hfounded : (startedLater.memory.table? (WideTable.name (Operation.typeName 0))).map
      (·.columns.map (·.name)) =
        some ["block_num", "fee", "guarantee_id", "index_in_tx", "memo", "txid"] := by
    decide +kernel
  obtain ⟨t, ht, hnames⟩ := Option.map_eq_some_iff.1 hfounded
  refine ⟨2, _, t, hlater, ht, earlier, x, _, op, hfirst.append _, fun hfrom => ?_⟩
  have hsame := hfrom.names
  rw [hnames, hkeys] at hsame
  exact absurd hsame (by decide)

end Scan

end ChainIndex
