import ChainIndex.Scan.Procedure
import ChainIndex.Text.Blank
import ChainIndex.Text.Integer

/-!
# The checkpoint

The number of the last block that is done with, kept in the store, so that a scan that starts again
goes on after it.
-/

namespace ChainIndex.Scan.Checkpoint

/-- The config key of the checkpoint. -/
def key : String := "last_scanned_block_number"

/-- The number that a stored value writes. -/
def ofText (value : String) : Except Error Nat :=
  match Text.readWord word64Max (Text.trim value) with
  | .ok n => .ok n
  | .error _ => .error (.malformed (.checkpoint key value))

/-- The text under which a number is stored. -/
def text (number : Nat) : String := String.ofList (Nat.toDigits 10 number)

/-- The last block that is done with, zero if there is none. -/
def last : Procedure Nat := do
  match ← store (.config key) with
  | none => pure 0
  | some value => Program.ofExcept (ofText value)

/-- Make a block the last one that is done with. A checkpoint that is there already is not written
again. -/
def moveTo (number : Nat) : Procedure Unit := do
  if (← store (.config key)) = some (text number) then pure ()
  else store (.putConfig key (text number))

/-- The block to start with: the one asked for, or else the one after the checkpoint. Numbers are
words of 64 bits, so that zero comes after the greatest. -/
def start : Option Nat → Procedure Nat
  | some number => pure number
  -- the checkpoint itself is done with, so the next block is the first one to scan
  | none => do return (← last).succ % (word64Max + 1)

end ChainIndex.Scan.Checkpoint
