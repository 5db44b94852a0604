import ChainIndex.Observer.AccountName
import ChainIndex.Observer.Token.Life

/-!
# The standard pipeline

The observers that a scanner runs with, in their order: a token has to be recorded before its events
are followed.
-/

namespace ChainIndex.Observer

/-- The observers of a scanner; tokens are asked on behalf of `caller`. -/
def standard (caller : String) : List (Observer Scan.interface) :=
  [accounts, tokens caller, transferBalances, amountBalances, tokenEvents caller]

end ChainIndex.Observer
