import ChainIndex.Observer.Pipeline
import ChainIndex.Scan.Checkpoint
import ChainIndex.Scan.Recording

/-!
# The scan

A scan takes one block after the other from the node, stores it with everything in it, shows its
operations to the observers, and moves the checkpoint. It goes on until it is cancelled between
two blocks or an error stops it. `advance` is one round of it and `scan` a number of rounds; where
a scan has got to after its rounds is part of the result, so a longer scan is a shorter one that
goes on.
-/

namespace ChainIndex.Scan

/-- What a scanner is set up with. -/
structure Setup where
  /-- The number of blocks between two writes of the checkpoint, zero for none. -/
  interval : Nat
  observers : List (Observer interface)

/-! ## One block -/

/-- Store an operation and show it to the observers. -/
def indexOperation (setup : Setup) (block : Block) (tx : Transaction) (receipts : List Receipt)
    (index : Nat) (raw : Json) : Procedure Unit := do
  let (typeCode, payload) ← Program.ofExcept (Operation.decode raw)
  -- the observers see the payload as it is stored
  let payload := locate payload block.number tx.id index
  let op := Placed.ofDecoded block.number tx.id tx.indexInBlock index typeCode payload
  recordOperation op
  Observer.applyAll setup.observers {
    block, index, typeCode, payload
    transaction := tx.id
    typeName := op.typeName
    receipt := receipts[index]? }

/-- Process the operations of a transaction from a position on. -/
def indexOperations (setup : Setup) (block : Block) (tx : Transaction) (receipts : List Receipt) :
    Nat → List Json → Procedure Unit
  | _, [] => pure ()
  | index, raw :: rest => do
    indexOperation setup block tx receipts index raw
    indexOperations setup block tx receipts (index + 1) rest

/-- Process a transaction: its receipts are asked for first and stored last. -/
def indexTransaction (setup : Setup) (block : Block) (tx : Transaction) : Procedure Unit := do
  let receipts ← neededReceipts tx
  let _ ← recordTransaction tx
  indexOperations setup block tx receipts 0 tx.operations
  let _ ← recordReceipts receipts

/-- Process some transactions of a block. -/
def indexTransactions (setup : Setup) (block : Block) : List Transaction → Procedure Unit
  | [] => pure ()
  | tx :: rest => do
    indexTransaction setup block tx
    indexTransactions setup block rest

/-- Process a block with everything in it. -/
def indexBlock (setup : Setup) (block : Block) : Procedure Unit := do
  let _ ← recordBlock block
  recordPreviousId block
  indexTransactions setup block block.transactions

/-! ## Rounds -/

/-- Where a scan is after a round. -/
inductive Position where
  /-- At a block that is to be scanned next. -/
  | scanning (cursor : Nat)
  /-- At its end, with the last block that is done with. -/
  | stopped (last : Nat)
deriving DecidableEq, Repr

/-- End a scan before a block, with the checkpoint at the block before. -/
def endBefore (cursor : Nat) : Procedure Position := do
  Checkpoint.moveTo (cursor - 1)
  pure (.stopped (cursor - 1))

/-- An error ends the scan with that error. But when the scan has been cancelled, the connection may
have been closed under it: an error of the node then ends it as if nothing of the block had been
done. -/
def breakOff (cursor : Nat) (e : Error) : Procedure Position := do
  if e.isNodeFailure then
    if ← cancelled then endBefore cursor else throw e
  else throw e

/-- Scan a block that the node has given for a number. -/
def scanBlock (setup : Setup) (cursor : Nat) (block : Block) : Procedure Position := do
  -- the number that was asked for counts, not the one that the node has filled in
  let block := ({ block with number := cursor } : Block).placeAll
  match ← (indexBlock setup block).attempt with
  | .error e => breakOff cursor e
  | .ok () =>
    if 0 < setup.interval ∧ cursor % setup.interval = 0 then Checkpoint.moveTo cursor else pure ()
    pure (.scanning (cursor + 1))

/-- One round at a block. Past the head of the chain the checkpoint is brought up to it, and the
next round is at the same block. -/
def advance (setup : Setup) (cursor : Nat) : Procedure Position := do
  if ← cancelled then endBefore cursor
  else
    match ← (node (.block cursor)).attempt with
    | .error e => breakOff cursor e
    | .ok none =>
      -- the checkpoint may lag by less than an interval; a scan that waits writes it once
      Checkpoint.moveTo (cursor - 1)
      pure (.scanning cursor)
    | .ok (some block) => scanBlock setup cursor block

/-- A number of rounds, fewer if the scan stops. -/
def scan (setup : Setup) : (rounds : Nat) → (cursor : Nat) → Procedure Position
  | 0, cursor => pure (.scanning cursor)
  | rounds + 1, cursor => do
    match ← advance setup cursor with
    | .stopped last => pure (.stopped last)
    | .scanning cursor => scan setup rounds cursor

end ChainIndex.Scan
