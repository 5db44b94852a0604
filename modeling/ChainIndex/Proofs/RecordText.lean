import ChainIndex.Chain.Asset
import ChainIndex.Chain.Block
import ChainIndex.Chain.Receipt
import ChainIndex.Proofs.DocumentText
import ChainIndex.Proofs.Lookups
import Mathlib.Data.List.Basic

/-!
# Records read back from their text

A record is written as an object of its fields, each under the name that its reader looks for. Where
the fields are read back from what they are written as, so is the record.
-/

namespace ChainIndex

namespace Json

/-! ## Fields -/

theorem itemDocuments_eq_map (items : List Json) : itemDocuments items = items.map document := by
  induction items with
  | nil => rfl
  | cons v items ih => rw [itemDocuments, ih, List.map_cons]

theorem memberDocuments_eq_map (members : List (String × Json)) :
    memberDocuments members = members.map fun m => (m.1, m.2.document) := by
  induction members with
  | nil => rfl
  | cons m members ih => rw [memberDocuments, ih, List.map_cons]

/-- The fields of a record that was written with these members. -/
def written (members : List (String × Json)) : Fields :=
  fun name => (members.lookup name).map document

theorem lookup_memberDocuments (members : List (String × Json)) (name : String) :
    (memberDocuments members).lookup name = written members name := by
  induction members with
  | nil => rfl
  | cons m members ih =>
    obtain ⟨key, v⟩ := m
    rw [written] at ih ⊢
    rw [memberDocuments, List.lookup_cons, List.lookup_cons, ih]
    cases name == key <;> rfl

/-- An object that has the names of a record, each once, has its fields. -/
theorem fields?_document {names : List String} {members : List (String × Json)}
    (hnames : members.map (·.1) = names) (hnodup : names.Nodup) :
    fields? names (Json.obj members).document = some (written members) := by
  have hkeys : (memberDocuments members).map (·.1) = names := by
    rw [memberDocuments_eq_map, List.map_map, ← hnames]
    rfl
  have honce : (names.any fun name =>
      1 < (memberDocuments members).countP fun member => member.1 == name) = false := by
    rw [List.any_eq_false]
    intro name _
    have hcount := List.nodup_iff_count.1 hnodup name
    rw [← hkeys, List.count, List.countP_map] at hcount
    simpa [Function.comp_def] using hcount
  rw [document, fields?, honce]
  exact congrArg some (funext (lookup_memberDocuments members))

/-- A record that is written with the names of its fields, each once, has the fields that were
written. -/
theorem exists_fields {names : List String} {members : List (String × Json)}
    (hnames : members.map (·.1) = names) (hnodup : names.Nodup) :
    ∃ fields, fields? names (Json.obj members).document = some fields ∧
      ∀ m ∈ members, fields m.1 = some m.2.document :=
  ⟨written members, fields?_document hnames hnodup, fun _ hm => by
    rw [written, Store.Memory.lookup_of_mem (hnames ▸ hnodup) hm]
    rfl⟩

theorem Fields.get_of {α : Type} {fields : Fields} {name : String} {v : Json} {reader : Reader α}
    {fallback a : α} (hfield : fields name = some v.document)
    (hread : reader v.document = some a) : fields.get name reader fallback = some a := by
  rw [Fields.get, hfield]
  exact hread

theorem Fields.need_of {α : Type} {fields : Fields} {name : String} {v : Json}
    {reader : Reader α} {a : α} (hfield : fields name = some v.document)
    (hread : reader v.document = some a) : fields.need name reader = some a := by
  rw [Fields.need, hfield]
  exact hread

/-! ## Values of fields -/

theorem natural_ofNat {n high : Nat} (h : n ≤ high) :
    Reader.natural high (ofNat n).document = some n := by
  show (if 0 ≤ (n : Int) ∧ (n : Int) ≤ high then some (n : Int).toNat else none) = some n
  rw [if_pos ⟨Int.natCast_nonneg n, Int.ofNat_le.2 h⟩, Int.toNat_natCast]

theorem word_ofNat {n : Nat} (h : n ≤ word64Max) : Reader.word (ofNat n).document = some n :=
  natural_ofNat h

@[simp] theorem text_str (s : String) : Reader.text (Json.str s).document = some s := rfl

@[simp] theorem orDefault_str (s fallback : String) :
    Reader.orDefault fallback .text (Json.str s).document = some s := rfl

@[simp] theorem flag_bool (b : Bool) : Reader.flag (Json.bool b).document = some b := rfl

theorem exact_ofNat {n : Nat} (h : n ≤ word64Max) : (ofNat n).Exact :=
  .int n (by unfold int64Min; omega) (Int.ofNat_le.2 h)

/-- A list is read back if its items are. -/
theorem list_map {α : Type} {reader : Reader α} {json : α → Json} {as : List α}
    (h : ∀ a ∈ as, reader (json a).document = some a) :
    Reader.list reader (Json.arr (as.map json)).document = some as := by
  show (itemDocuments (as.map json)).mapM reader = some as
  rw [itemDocuments_eq_map, List.map_map]
  induction as with
  | nil => rfl
  | cons a as ih =>
    have ha : reader ((document ∘ json) a) = some a := h a (by simp)
    rw [List.map_cons, List.mapM_cons, ha, ih fun b hb => h b (by simp [hb])]
    rfl

/-- Free values are read back. -/
theorem list_value {vs : List Json} (h : ∀ v ∈ vs, v.Plain) :
    Reader.list .value (Json.arr vs).document = some vs := by
  have hread : Reader.list .value (Json.arr (vs.map id)).document = some vs :=
    list_map fun v hv => (h v hv).value?_document
  rwa [List.map_id] at hread

/-- A list of strings is read back. -/
@[simp] theorem list_text (ss : List String) : Reader.list .text (ofTexts ss).document = some ss :=
  list_map fun _ _ => rfl

theorem exact_ofTexts (ss : List String) : (ofTexts ss).Exact := by
  refine .arr _ fun v hv => ?_
  obtain ⟨s, -, rfl⟩ := List.mem_map.1 hv
  exact .str s

theorem exact_map {α : Type} {json : α → Json} {as : List α} (h : ∀ a ∈ as, (json a).Exact) :
    (Json.arr (as.map json)).Exact := by
  refine .arr _ fun v hv => ?_
  obtain ⟨a, ha, rfl⟩ := List.mem_map.1 hv
  exact h a ha

theorem exact_values {vs : List Json} (h : ∀ v ∈ vs, v.Plain) : (Json.arr vs).Exact :=
  .arr vs fun v hv => (h v hv).exact

/-- A record is read back from its text if it is read back from its document. -/
theorem read_record {α : Type} {reader : Reader α} {v : Json} {a : α} (hexact : v.Exact)
    (hdepth : v.depth ≤ maxDepth) (hread : reader v.document = some a) :
    (Document.read v.text).bind reader = some a := by
  rw [read_text hexact hdepth, Option.bind_some, hread]

end Json

open Json

/-! ## Receipts -/

/-- An event whose numbers fit a word of 64 bits. -/
structure Event.Held (event : Event) : Prop where
  blockNumber : event.blockNumber ≤ word64Max
  operation : event.operation ≤ word64Max

theorem Event.exact_json {event : Event} (h : event.Held) : event.json.Exact := by
  refine .obj _ ?_
  simp only [List.forall_mem_cons]
  exact ⟨exact_ofNat h.blockNumber, .str _, .str _, .str _, .str _, exact_ofNat h.operation, .str _,
    fun _ hm => nomatch hm⟩

/-- An event is read back from what it is written as. -/
theorem Event.read_json {event : Event} (h : event.Held) :
    Event.read event.json.document = some event := by
  obtain ⟨fields, hfields, hwritten⟩ :
      ∃ fields, fields? fieldNames event.json.document = some fields ∧ _ :=
    exists_fields rfl (by decide)
  simp only [List.forall_mem_cons] at hwritten
  obtain ⟨hblock, hcaller, hcontract, hargument, hname, hoperation, htransaction, -⟩ := hwritten
  rw [Event.read, hfields, Option.bind_eq_bind, Option.bind_some]
  rw [Fields.get_of hblock (word_ofNat h.blockNumber), Fields.get_of hcaller (orDefault_str _ _),
    Fields.get_of hcontract (text_str _), Fields.get_of hargument (orDefault_str _ _),
    Fields.get_of hname (text_str _), Fields.get_of hoperation (word_ofNat h.operation),
    Fields.get_of htransaction (text_str _)]
  rfl

/-- A receipt whose numbers fit a word of 64 bits, without floating-point numbers in its free
values. -/
structure Receipt.Held (receipt : Receipt) : Prop where
  blockNumber : receipt.blockNumber ≤ word64Max
  operation : receipt.operation ≤ word64Max
  fee : receipt.fee ≤ word64Max
  events : ∀ event ∈ receipt.events, event.Held
  withdrawals : ∀ v ∈ receipt.withdrawals, v.Plain
  balanceChanges : ∀ v ∈ receipt.balanceChanges, v.Plain
  addressDeposits : ∀ v ∈ receipt.addressDeposits, v.Plain
  contractDeposits : ∀ v ∈ receipt.contractDeposits, v.Plain
  transferFees : ∀ v ∈ receipt.transferFees, v.Plain

section

variable {receipt : Receipt}

theorem Receipt.exact_events (h : receipt.Held) :
    (Json.arr (receipt.events.map Event.json)).Exact :=
  exact_map fun event hevent => Event.exact_json (h.events event hevent)

theorem Receipt.exact_json (h : receipt.Held) : receipt.json.Exact := by
  refine .obj _ ?_
  simp only [List.forall_mem_cons]
  exact ⟨.str _, .str _, exact_ofNat h.blockNumber, exact_ofNat h.operation, .str _,
    exact_events h, .bool _, exact_ofNat h.fee, .str _, .str _, exact_values h.withdrawals,
    exact_values h.balanceChanges, exact_values h.addressDeposits, exact_values h.contractDeposits,
    exact_values h.transferFees, fun _ hm => nomatch hm⟩

theorem Receipt.read_events (h : receipt.Held) :
    Reader.list Event.read (Json.arr (receipt.events.map Event.json)).document =
      some receipt.events :=
  list_map fun event hevent => Event.read_json (h.events event hevent)

/-- A receipt is read back from what it is written as. -/
theorem Receipt.read_json (h : receipt.Held) :
    Receipt.read receipt.json.document = some receipt := by
  obtain ⟨fields, hfields, hwritten⟩ :
      ∃ fields, fields? fieldNames receipt.json.document = some fields ∧ _ :=
    exists_fields rfl (by decide)
  simp only [List.forall_mem_cons] at hwritten
  obtain ⟨hid, htransaction, hblock, hoperation, hresult, hevents, hsucceeded, hfee, hinvoker,
    hregistered, hwithdrawals, hchanges, haddresses, hcontracts, hfees, -⟩ := hwritten
  rw [Receipt.read, hfields, Option.bind_eq_bind, Option.bind_some]
  rw [Fields.get_of hid (orDefault_str _ _), Fields.get_of htransaction (text_str _),
    Fields.get_of hblock (word_ofNat h.blockNumber),
    Fields.get_of hoperation (word_ofNat h.operation), Fields.get_of hresult (orDefault_str _ _),
    Fields.get_of hevents (read_events h), Fields.get_of hsucceeded (flag_bool _),
    Fields.get_of hfee (word_ofNat h.fee), Fields.get_of hinvoker (orDefault_str _ _),
    Fields.get_of hregistered (orDefault_str _ _),
    Fields.get_of hwithdrawals (list_value h.withdrawals),
    Fields.get_of hchanges (list_value h.balanceChanges),
    Fields.get_of haddresses (list_value h.addressDeposits),
    Fields.get_of hcontracts (list_value h.contractDeposits),
    Fields.get_of hfees (list_value h.transferFees)]
  rfl

end

/-! ## Blocks -/

/-- A transaction whose numbers fit a word of 64 bits, without floating-point numbers in its free
values. -/
structure Transaction.Held (tx : Transaction) : Prop where
  blockNumber : tx.blockNumber ≤ word64Max
  indexInBlock : tx.indexInBlock ≤ word64Max
  refBlockNumber : tx.refBlockNumber ≤ word64Max
  refBlockPrefix : tx.refBlockPrefix ≤ word64Max
  extensions : ∀ v ∈ tx.extensions, v.Plain
  operationResults : ∀ v ∈ tx.operationResults, v.Plain
  operations : ∀ v ∈ tx.operations, v.Plain

theorem Transaction.exact_json {tx : Transaction} (h : tx.Held) : tx.json.Exact := by
  refine .obj _ ?_
  simp only [List.forall_mem_cons]
  exact ⟨exact_ofNat h.blockNumber, .str _, .str _, exact_ofNat h.indexInBlock, .str _,
    exact_values h.extensions, exact_values h.operationResults, exact_values h.operations,
    exact_ofNat h.refBlockNumber, exact_ofNat h.refBlockPrefix, exact_ofTexts _,
    fun _ hm => nomatch hm⟩

/-- A transaction is read back from what it is written as. -/
theorem Transaction.read_json {tx : Transaction} (h : tx.Held) :
    Transaction.read tx.json.document = some tx := by
  obtain ⟨fields, hfields, hwritten⟩ :
      ∃ fields, fields? fieldNames tx.json.document = some fields ∧ _ :=
    exists_fields rfl (by decide)
  simp only [List.forall_mem_cons] at hwritten
  obtain ⟨hblock, hid, hcontract, hindex, hexpiration, hextensions, hresults, hoperations,
    hrefNumber, hrefPrefix, hsignatures, -⟩ := hwritten
  rw [Transaction.read, hfields, Option.bind_eq_bind, Option.bind_some]
  rw [Fields.get_of hblock (word_ofNat h.blockNumber), Fields.get_of hid (text_str _),
    Fields.get_of hcontract (text_str _), Fields.get_of hindex (word_ofNat h.indexInBlock),
    Fields.get_of hexpiration (text_str _), Fields.get_of hextensions (list_value h.extensions),
    Fields.get_of hresults (list_value h.operationResults),
    Fields.get_of hoperations (list_value h.operations),
    Fields.get_of hrefNumber (word_ofNat h.refBlockNumber),
    Fields.get_of hrefPrefix (word_ofNat h.refBlockPrefix), Fields.get_of hsignatures (list_text _)]
  rfl

/-- A block whose numbers fit a word of 64 bits, without floating-point numbers in its free
values. -/
structure Block.Held (block : Block) : Prop where
  number : block.number ≤ word64Max
  fee : block.fee ≤ word64Max
  transactions : ∀ tx ∈ block.transactions, tx.Held
  extensions : ∀ v ∈ block.extensions, v.Plain

theorem Block.exact_json {block : Block} (h : block.Held) : block.json.Exact := by
  refine .obj _ ?_
  simp only [List.forall_mem_cons]
  exact ⟨exact_ofNat h.number, .str _, .str _, .str _, .str _, .str _, .str _, .str _,
    exact_ofNat h.fee, exact_map fun tx htx => Transaction.exact_json (h.transactions tx htx),
    exact_ofTexts _, exact_values h.extensions, fun _ hm => nomatch hm⟩

/-- A block is read back from what it is written as. -/
theorem Block.read_json {block : Block} (h : block.Held) :
    Block.read block.json.document = some block := by
  obtain ⟨fields, hfields, hwritten⟩ :
      ∃ fields, fields? fieldNames block.json.document = some fields ∧ _ :=
    exists_fields rfl (by decide)
  simp only [List.forall_mem_cons] at hwritten
  obtain ⟨hnumber, hprevious, htimestamp, hminer, hsignature, hnext, hsecret, hmerkle, hfee,
    htransactions, hids, hextensions, -⟩ := hwritten
  rw [Block.read, hfields, Option.bind_eq_bind, Option.bind_some]
  rw [Fields.get_of hnumber (word_ofNat h.number), Fields.get_of hprevious (text_str _),
    Fields.get_of htimestamp (text_str _), Fields.get_of hminer (text_str _),
    Fields.get_of hsignature (text_str _), Fields.get_of hnext (text_str _),
    Fields.get_of hsecret (text_str _), Fields.get_of hmerkle (text_str _),
    Fields.get_of hfee (word_ofNat h.fee),
    Fields.get_of htransactions
      (list_map fun tx htx => Transaction.read_json (h.transactions tx htx)),
    Fields.get_of hids (list_text _), Fields.get_of hextensions (list_value h.extensions)]
  rfl

/-! ## Assets -/

/-- An asset whose precision fits a word of 32 bits. -/
def Asset.Held (asset : Asset) : Prop := asset.precision ≤ word32Max

theorem Asset.exact_json {asset : Asset} (h : asset.Held) : asset.json.Exact := by
  refine .obj _ ?_
  simp only [List.forall_mem_cons]
  exact ⟨.str _, .str _, exact_ofNat (Nat.le_trans h (by decide)), fun _ hm => nomatch hm⟩

/-- An asset is read back from what it is written as. -/
theorem Asset.read_json {asset : Asset} (h : asset.Held) :
    Asset.read asset.json.document = some asset := by
  obtain ⟨fields, hfields, hwritten⟩ :
      ∃ fields, fields? fieldNames asset.json.document = some fields ∧ _ :=
    exists_fields rfl (by decide)
  simp only [List.forall_mem_cons] at hwritten
  obtain ⟨hid, hsymbol, hprecision, -⟩ := hwritten
  rw [Asset.read, hfields, Option.bind_eq_bind, Option.bind_some]
  rw [Fields.need_of hid (text_str _), Fields.need_of hsymbol (text_str _),
    Fields.need_of hprecision (natural_ofNat h)]
  rfl

end ChainIndex
