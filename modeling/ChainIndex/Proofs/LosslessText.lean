import ChainIndex.Proofs.Anatomy
import ChainIndex.Proofs.RecordText

/-!
# Nothing is lost in a text

Blocks, transactions, receipts with their events, and assets are read back from their texts, and so
is what the store keeps as text: the lists of a receipt and the payload of an operation. A stored
operation is one that the node has told of, so that what is read back is the payload that the chain
has, with the place that was put into it.
-/

namespace ChainIndex

open Json (Reader Document maxDepth ofNat read_record membersDepth depth_le_membersDepth)

/-! ## Records -/

/-- Whatever has a property is read back from the text of what it is written as, if that nests no
deeper than is allowed. -/
def Json.Lossless {α : Type} (held : α → Prop) (json : α → Json) (reader : Reader α) : Prop :=
  ∀ a, held a → (json a).depth ≤ maxDepth → (Document.read (json a).text).bind reader = some a

theorem Json.lossless_of_read {α : Type} {held : α → Prop} {json : α → Json} {reader : Reader α}
    (hexact : ∀ {a}, held a → (json a).Exact)
    (hread : ∀ {a}, held a → reader (json a).document = some a) : Lossless held json reader :=
  fun _ h hdepth => read_record (hexact h) hdepth (hread h)

/-- A receipt is written under the names that the wire has for its fields. -/
structure Receipt.OnWire (receipt : Receipt) : Prop where
  id : receipt.json.member? "id" = some (.str receipt.id)
  transaction : receipt.json.member? "trx_id" = some (.str receipt.transaction)
  fee : receipt.json.member? "acctual_fee" = some (ofNat receipt.fee)
  registered : receipt.json.member? "contract_registed" = some (.str receipt.registered)
  withdrawals : receipt.json.member? "contract_withdraw" = some (.arr receipt.withdrawals)
  balanceChanges : receipt.json.member? "contract_balances" = some (.arr receipt.balanceChanges)
  addressDeposits : receipt.json.member? "deposit_to_address" = some (.arr receipt.addressDeposits)
  contractDeposits : receipt.json.member? "deposit_contract" = some (.arr receipt.contractDeposits)

theorem Receipt.onWire (receipt : Receipt) : receipt.OnWire := by
  constructor <;> rfl

/-! ## The lists of a receipt -/

/-- The texts of a record have the lists of its receipt. -/
structure Receipt.ReadBack (receipt : Receipt) (record : ReceiptRecord) : Prop where
  events : (Document.read record.events).bind (Reader.list Event.read) = some receipt.events
  withdrawals :
    (Document.read record.withdrawals).bind (Reader.list .value) = some receipt.withdrawals
  balanceChanges :
    (Document.read record.balanceChanges).bind (Reader.list .value) = some receipt.balanceChanges
  addressDeposits :
    (Document.read record.addressDeposits).bind (Reader.list .value) = some receipt.addressDeposits
  contractDeposits :
    (Document.read record.contractDeposits).bind (Reader.list .value) =
      some receipt.contractDeposits
  transferFees :
    (Document.read record.transferFees).bind (Reader.list .value) = some receipt.transferFees

/-- What is written in an object nests less deeply than the object. -/
theorem Json.depth_of_member {members : List (String × Json)} (name : String) {v : Json}
    (hmember : (name, v) ∈ members) (hdepth : (Json.obj members).depth ≤ maxDepth) :
    v.depth ≤ maxDepth := by
  have hle : v.depth ≤ membersDepth members := depth_le_membersDepth hmember
  rw [depth] at hdepth
  omega

/-- A list of free values is read back from its text. -/
theorem Json.read_values {vs : List Json} (h : ∀ v ∈ vs, v.Plain)
    (hdepth : (Json.arr vs).depth ≤ maxDepth) :
    (Document.read (Json.arr vs).text).bind (Reader.list .value) = some vs :=
  read_record (exact_values h) hdepth (list_value h)

theorem Receipt.readBack {receipt : Receipt} {record : ReceiptRecord} {events : List EventRecord}
    (hrecord : receipt.records = .ok (record, events)) (h : receipt.Held)
    (hdepth : receipt.json.depth ≤ maxDepth) : receipt.ReadBack record := by
  obtain ⟨number, -, hrecord⟩ := Entry.of_bind hrecord
  obtain ⟨operation, -, hrecord⟩ := Entry.of_bind hrecord
  obtain ⟨fee, -, hrecord⟩ := Entry.of_bind hrecord
  obtain ⟨told, -, hrecord⟩ := Entry.of_bind hrecord
  cases hrecord
  exact {
    events := read_record (exact_events h)
      (Json.depth_of_member "events" (by simp) hdepth) (read_events h)
    withdrawals := Json.read_values h.withdrawals
      (Json.depth_of_member "contract_withdraw" (by simp) hdepth)
    balanceChanges := Json.read_values h.balanceChanges
      (Json.depth_of_member "contract_balances" (by simp) hdepth)
    addressDeposits := Json.read_values h.addressDeposits
      (Json.depth_of_member "deposit_to_address" (by simp) hdepth)
    contractDeposits := Json.read_values h.contractDeposits
      (Json.depth_of_member "deposit_contract" (by simp) hdepth)
    transferFees := Json.read_values h.transferFees
      (Json.depth_of_member "transfer_fees" (by simp) hdepth) }

/-! ## Payloads -/

/-- A payload without floating-point numbers. -/
def Payload.Plain (p : Payload) : Prop := (Json.obj p.members).Plain

theorem Members.mem_put {key : String} {value : Json} {ms : Members} {m : String × Json}
    (h : m ∈ put key value ms) : m = (key, value) ∨ m ∈ ms := by
  induction ms with
  | nil => exact .inl (List.mem_singleton.1 h)
  | cons n ms ih =>
    obtain ⟨k, v⟩ := n
    simp only [put] at h
    split at h
    · exact List.mem_cons.1 h
    split at h
    · exact (List.mem_cons.1 h).imp_right (List.mem_cons_of_mem _)
    · rcases List.mem_cons.1 h with rfl | h
      · exact .inr List.mem_cons_self
      · exact (ih h).imp_right (List.mem_cons_of_mem _)

namespace Payload.Plain

variable {p : Payload} {value : Json}

theorem put (h : p.Plain) (key : String) (hvalue : value.Plain) : (p.put key value).Plain := by
  have hmembers : ∀ m ∈ p.members, m.2.Plain := by
    cases h with
    | obj _ _ hmembers => exact hmembers
  refine .obj _ (p.put key value).sorted fun m hm => ?_
  rcases Members.mem_put hm with rfl | hm
  · exact hvalue
  · exact hmembers m hm

theorem putNew (h : p.Plain) (key : String) (hvalue : value.Plain) :
    (p.putNew key value).Plain := by
  unfold Payload.putNew
  split
  · exact h
  · exact h.put key hvalue

theorem of_decode {raw : Json} (h : raw.Plain) {code : Int}
    (hdecode : Operation.decode raw = .ok (code, p)) : p.Plain := by
  unfold Operation.decode at hdecode
  split at hdecode
  · rename_i first second
    split at hdecode
    · cases hdecode
    split at hdecode
    · rename_i members
      cases hdecode
      have hpayload : (Json.obj members).Plain := by
        cases h with
        | arr _ hitems => exact hitems _ (by simp)
      show (Json.obj (Members.ofList members)).Plain
      cases hpayload with
      | obj _ hsorted hmembers =>
        rw [Members.ofList_of_sorted hsorted]
        exact .obj members hsorted hmembers
    · cases hdecode
  · cases hdecode
  · cases hdecode

/-- What is put into a payload for its place are integers and strings. -/
theorem locate (h : p.Plain) {number index : Nat} (hnumber : (number : Int) ≤ int64Max)
    (hindex : (index : Int) ≤ int32Max) (transaction : String) :
    (Scan.locate p number transaction index).Plain := by
  have hnatural : ∀ {n : Nat}, (n : Int) ≤ int64Max → (ofNat n).Plain := by
    intro n hn
    unfold int64Max at hn
    exact .int n (by unfold int64Min; omega) (by unfold word64Max; omega)
  have hplace : (index : Int) ≤ int64Max := Int.le_trans hindex (by decide)
  exact ((((h.put _ (hnatural hnumber)).put _ (.str transaction)).put _ (hnatural hplace)).putNew _
    (.str "")).putNew _ (.str "")

end Payload.Plain

/-! ## Stored operations -/

namespace Scan

variable {ω : Type} {env : Surroundings ω} {s : Situation ω}

theorem Placed.of_record {op : Placed} {record : OperationRecord} (h : op.record = .ok record) :
    record.payload = op.payload.text ∧ (op.blockNumber : Int) ≤ int64Max ∧
      (op.index : Int) ≤ int32Max := by
  obtain ⟨number, hnumber, h⟩ := Entry.of_bind h
  obtain ⟨position, -, h⟩ := Entry.of_bind h
  obtain ⟨index, hindex, h⟩ := Entry.of_bind h
  obtain ⟨code, -, h⟩ := Entry.of_bind h
  cases h
  exact ⟨rfl, (Entry.int64_ok hnumber).2.2, (Entry.int32_ok hindex).2.2⟩

/-- An operation is stored as its record. -/
theorem recordOperation_writes (op : Placed) :
    Heeds (fun request => request.target? = some .operations →
      ∃ record, op.record = .ok record ∧ request = .store (.addOperation record))
        (recordOperation op) := by
  have hcolumns : Heeds (fun request => request.target? = some .operations →
      ∃ record, op.record = .ok record ∧ request = .store (.addOperation record))
        (WideTable.columns op.typeName op.payload) :=
    (columns_heeds op.typeName op.payload).widen fun request h htarget => absurd htarget h.2
  have hrecord : Heeds (fun request => request.target? = some .operations →
      ∃ record, op.record = .ok record ∧ request = .store (.addOperation record))
        ((store (.operation (placeId op.blockNumber op.transaction op.index))).bind fun found =>
          if found.isSome then .done ()
          else (Program.ofExcept op.record).bind fun record => store (.addOperation record)) := by
    refine heeds_store nofun fun found => ?_
    split
    · exact .done _
    cases op.record with
    | error e => exact .fail e
    | ok record => exact store_heeds fun _ => ⟨record, rfl, rfl⟩
  refine Program.Obeys.bind (Program.Obeys.bind hcolumns fun _ => .done _) fun _ => ?_
  refine Program.Obeys.bind (heeds_store nofun fun _ => .done _) fun lacksRow => ?_
  cases lacksRow with
  | true =>
    refine Program.Obeys.bind ?_ fun _ => hrecord
    exact Program.Obeys.bind hcolumns fun known => store_heeds nofun
  | false => exact hrecord

/-- Every stored operation is one that the node has told of. -/
def Situation.StoresTold (env : Surroundings ω) (s : Situation ω) : Prop :=
  ∀ record ∈ s.memory.operations, ∃ op, env.Tells op ∧ op.record = .ok record

theorem Situation.StoresTold.same (h : s.StoresTold env) {s' : Situation ω}
    (hsame : s'.memory.operations = s.memory.operations) : s'.StoresTold env := by
  intro record hrecord
  rw [hsame] at hrecord
  exact h record hrecord

/-- A request that stores no other operation keeps to what the node has told. -/
theorem Situation.StoresTold.answer (h : s.StoresTold env) {request : Request}
    (hwrites : request.target? = some .operations →
      ∃ op record, env.Tells op ∧ op.record = .ok record ∧
        request = .store (.addOperation record)) :
    (env.answer request s).2.StoresTold env := by
  by_cases htarget : request.target? = some .operations
  · obtain ⟨op, record, htold, hrecord, rfl⟩ := hwrites htarget
    obtain ⟨detail, world, hstore⟩ | ⟨world, hstore⟩ :=
      env.answer_store_cases (.addOperation record) s
    · rw [hstore]
      exact h.same rfl
    · rw [hstore]
      refine Store.Memory.written_keeps
        (P := fun m => Situation.StoresTold env ⟨world, m, s.cache⟩) (h.same rfl) fun m' hadd => ?_
      rw [Store.Memory.of_free hadd]
      intro row hrow
      rcases List.mem_append.1 hrow with hrow | hrow
      · exact h row hrow
      · rw [List.mem_singleton.1 hrow]
        exact ⟨op, htold, hrecord⟩
  · exact h.same (env.answer_same htarget s)

theorem Reachable.storesTold {resting : ω → ω → Prop} {starts : Option Nat → Prop}
    (h : Reachable env resting starts s) : s.StoresTold env := by
  refine h.invariant (M := Situation.StoresTold env) (fun _ => nofun)
    (fun s world hs => hs.same rfl) ?_ ?_ ?_
  · intro request s houter _ hs
    exact hs.answer fun htarget => nomatch Request.target?_of_isOuter houter htarget
  · intro op s htold _ hs
    refine (recordOperation_writes op).along_keeping (fun request s hwrites hs => ?_) hs
    have hs' := hs.answer fun htarget => by
      obtain ⟨record, hrecord, hrequest⟩ := hwrites htarget
      exact ⟨op, record, htold, hrecord, hrequest⟩
    exact ⟨hs', hs'⟩
  · intro caller seen s _ _ hs
    refine (standard_heeds caller seen).along_keeping (fun request s hobserves hs => ?_) hs
    have hs' := hs.answer fun htarget =>
      absurd (Request.target?_of_observes hobserves htarget) (by decide)
    exact ⟨hs', hs'⟩

/-- Blocks, transactions, events, receipts and assets without floating-point numbers in their free
values are read back from their texts, the wire's own names for fields included. So are the lists of
every receipt that can be stored from the texts of its record. Every stored operation is one of a
block that the node has given, and its text has the payload that the operation has there, with its
place. -/
theorem nothing_lost_in_text {resting : ω → ω → Prop} {starts : Option Nat → Prop}
    (h : Reachable env resting starts s) :
    (Json.Lossless Block.Held Block.json Block.read ∧
      Json.Lossless Transaction.Held Transaction.json Transaction.read ∧
      Json.Lossless Event.Held Event.json Event.read ∧
      Json.Lossless Receipt.Held Receipt.json Receipt.read ∧
      Json.Lossless Asset.Held Asset.json Asset.read) ∧
    ((∀ receipt : Receipt, receipt.OnWire) ∧
      (∀ event : Event, event.json.member? "trx_id" = some (.str event.transaction)) ∧
      ∀ asset : Asset, asset.json.member? "id" = some (.str asset.id)) ∧
    (∀ (receipt : Receipt) record events, receipt.records = .ok (record, events) →
      receipt.Held → receipt.json.depth ≤ maxDepth → receipt.ReadBack record) ∧
    ∀ record ∈ s.memory.operations, ∃ world number b tx index raw code p,
      (env.node (.block number) world).1 = .ok (some b) ∧ tx ∈ (asked b number).transactions ∧
        tx.operations[index]? = some raw ∧ Operation.decode raw = .ok (code, p) ∧
        record.id = placeId number tx.id index ∧
        let injected : Json := .obj (locate p number tx.id index).members
        (raw.Plain → injected.depth ≤ maxDepth → Json.read record.payload = some injected) := by
  refine ⟨⟨?_, ?_, ?_, ?_, ?_⟩, ⟨Receipt.onWire, fun _ => rfl, fun _ => rfl⟩,
    fun receipt record events => Receipt.readBack, fun record hrecord => ?_⟩
  · exact Json.lossless_of_read Block.exact_json Block.read_json
  · exact Json.lossless_of_read Transaction.exact_json Transaction.read_json
  · exact Json.lossless_of_read Event.exact_json Event.read_json
  · exact Json.lossless_of_read Receipt.exact_json Receipt.read_json
  · exact Json.lossless_of_read Asset.exact_json Asset.read_json
  · obtain ⟨op, htold, hop⟩ := h.storesTold record hrecord
    obtain ⟨hpayload, hnumber, hindex⟩ := Placed.of_record hop
    have hid := (Entry.operation_record hop).id
    obtain ⟨world, b, tx, raw, code, p, hgiven, htx, hraw, hdecode, hplaced⟩ := htold
    have htransaction : op.transaction = tx.id := congrArg Placed.transaction hplaced
    have hlocated : op.payload = locate p op.blockNumber tx.id op.index :=
      congrArg Placed.payload hplaced
    rw [htransaction] at hid
    refine ⟨world, op.blockNumber, b, tx, op.index, raw, code, p, hgiven, htx, hraw, hdecode, hid,
      fun hplain hdepth => ?_⟩
    rw [hpayload, hlocated]
    exact ((Payload.Plain.of_decode hplain hdecode).locate hnumber hindex tx.id).read_text hdepth

/-- A text with a quote, a backslash, a control character and one beyond ASCII. -/
def awkward : String := "\"\\\u0001é"

/-- A receipt with awkward texts and the greatest integer. -/
def awkwardReceipt : Receipt where
  transaction := awkward
  events := [{ argument := awkward, name := "Transfer" }]
  withdrawals := [.int word64Max, .obj [("", .null), (awkward, .str awkward)]]

theorem awkwardReceipt_held : awkwardReceipt.Held where
  blockNumber := by decide
  operation := by decide
  fee := by decide
  events event hevent := by
    rw [List.mem_singleton.1 hevent]
    exact ⟨by decide, by decide⟩
  withdrawals v hv := by
    rcases List.mem_cons.1 hv with rfl | hv
    · exact .int _ (by decide) (by decide)
    rw [List.mem_singleton.1 hv]
    refine .obj _ (by unfold Members.Sorted; decide) ?_
    simp only [List.forall_mem_cons]
    exact ⟨.null, .str _, nofun⟩
  balanceChanges := nofun
  addressDeposits := nofun
  contractDeposits := nofun
  transferFees := nofun

/-- A transfer with an awkward memo. -/
def awkwardTransfer : Json := .arr [.int 0, .obj [("memo", .str awkward)]]

/-- A block with this transfer. -/
def awkwardBlock : Block :=
  { number := 1, transactions := [{ id := awkward, operations := [awkwardTransfer] }] }

/-- Surroundings in which there is this block. -/
def besideAwkward : Surroundings Unit := .steady (.lone awkwardBlock (.node "closed"))

/-- How things stand at the moments of a run there. -/
def awkwardMoments : List (Situation Unit) :=
  (launch ⟨1, Observer.standard "caller"⟩ none 1).moments besideAwkward.answer
    ⟨(), Store.Memory.empty, Cache.empty⟩

/-- The run has come to its end. -/
def awkwardStored : Situation Unit :=
  awkwardMoments.getLastD ⟨(), Store.Memory.empty, Cache.empty⟩

/-- The payload of the transfer with its place. -/
def awkwardInjected : Json :=
  .obj [("block_num", .int 1), ("guarantee_id", .str ""), ("index_in_tx", .int 0),
    ("memo", .str awkward), ("txid", .str awkward)]

theorem nothing_lost_in_awkward_text :
    (Document.read awkwardReceipt.json.text).bind Receipt.read = some awkwardReceipt ∧
      (∃ record events, awkwardReceipt.records = .ok (record, events) ∧
        awkwardReceipt.ReadBack record) ∧
      ∃ record, awkwardStored.memory.operations = [record] ∧
        Json.read record.payload = some awkwardInjected := by
  have hsome : awkwardMoments ≠ [] := by decide +kernel
  have hmoment : awkwardStored ∈ awkwardMoments := Program.getLastD_mem_of_ne_nil _ hsome
  have hreachable : Reachable besideAwkward (fun _ _ => True) (· = none) awkwardStored :=
    .run 1 1 "caller" (.empty ()) trivial rfl hmoment
  obtain ⟨⟨-, -, -, hreceipt, -⟩, -, hcolumns, hoperations⟩ := nothing_lost_in_text hreachable
  have hdepth : awkwardReceipt.json.depth ≤ maxDepth := by decide
  refine ⟨hreceipt _ awkwardReceipt_held hdepth, ⟨_, _, rfl, hcolumns _ _ _ rfl
    awkwardReceipt_held hdepth⟩, ?_⟩
  have hone : awkwardStored.memory.operations.length = 1 := by decide +kernel
  obtain ⟨record, hrecord⟩ := List.length_eq_one_iff.1 hone
  refine ⟨record, hrecord, ?_⟩
  obtain ⟨world, number, b, tx, index, raw, code, p, hgiven, htx, hraw, hdecode, -, hpayload⟩ :=
    hoperations record (by rw [hrecord]; exact List.mem_singleton.2 rfl)
  -- there is one operation that the node can have told of
  have hfound : (if number = 1 then some awkwardBlock else none) = some b := Except.ok.inj hgiven
  split at hfound
  · rename_i hnumber
    subst hnumber
    cases hfound
    cases List.mem_singleton.1 htx
    cases index with
    | zero =>
      cases hraw
      cases hdecode
      refine hpayload (.arr _ fun v hv => ?_) (by decide)
      rcases List.mem_cons.1 hv with rfl | hv
      · exact .int 0 (by decide) (by decide)
      rw [List.mem_singleton.1 hv]
      exact .obj _ (List.pairwise_singleton _ _) fun m hm => List.mem_singleton.1 hm ▸ .str _
    | succ index => cases hraw
  · cases hfound

end Scan

end ChainIndex
