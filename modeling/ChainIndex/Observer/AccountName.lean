import ChainIndex.Chain.Holder
import ChainIndex.Observer.Pipeline
import ChainIndex.Scan.Procedure

/-!
# Account names

The name under which an address was first registered.
-/

namespace ChainIndex.Observer

open Scan (Procedure store)

/-- Record the account of an operation that creates one, unless its address has an account. -/
def recordAccount (seen : Observation) : Procedure Unit :=
  if seen.typeName ≠ "account_create_operation" then pure ()
  else
    match seen.payload.text? "name", seen.payload.text? "payer" with
    | some name, some owner => do
      if (← store (.account owner)).isSome then pure ()
      else store (.addAccount ⟨owner, name⟩)
    | _, _ => pure ()

/-- The observer of account names. -/
def accounts : Observer Scan.interface := ⟨"AccountRegistry", recordAccount⟩

end ChainIndex.Observer
