import ChainIndex.Store.Memory

/-!
# What a scanner remembers

Between operations a scanner remembers the columns of the wide tables it has seen, the assets it
has looked up and the contracts it knows to be tokens. All of it can be lost at any time: whatever
is not remembered is found in the store again.
-/

namespace ChainIndex.Scan

/-- The observers that look up assets, each with a memory of its own. -/
inductive Refresher where
  | transfers
  | amounts
  | deposits
deriving DecidableEq, Repr

/-- The memory of a scanner. -/
structure Cache where
  columns : List (String × List Column) := []
  transferAssets : List (String × AssetRecord) := []
  amountAssets : List (String × AssetRecord) := []
  depositAssets : List (String × AssetRecord) := []
  tokens : List String := []
deriving DecidableEq, Repr

namespace Cache

/-- A request to the memory. -/
inductive Request where
  | columns (table : String)
  | keepColumns (table : String) (columns : List Column)
  | asset (owner : Refresher) (id : String)
  | keepAsset (owner : Refresher) (id : String) (asset : AssetRecord)
  | token (contract : String)
  | keepToken (contract : String)
deriving DecidableEq, Repr

/-- What the memory replies to a request. -/
@[reducible] def Request.Result : Request → Type
  | .columns _ => Option (List Column)
  | .keepColumns _ _ => Unit
  | .asset _ _ => Option AssetRecord
  | .keepAsset _ _ _ => Unit
  | .token _ => Bool
  | .keepToken _ => Unit

/-- The empty memory, that of a scanner that has just started. -/
def empty : Cache := {}

/-- The assets that an observer remembers. -/
def assetsOf (cache : Cache) : Refresher → List (String × AssetRecord)
  | .transfers => cache.transferAssets
  | .amounts => cache.amountAssets
  | .deposits => cache.depositAssets

/-- The memory with other assets for an observer. -/
def withAssets (cache : Cache) (assets : List (String × AssetRecord)) : Refresher → Cache
  | .transfers => { cache with transferAssets := assets }
  | .amounts => { cache with amountAssets := assets }
  | .deposits => { cache with depositAssets := assets }

/-- The reply to a request, and the memory after it. -/
def answer : (request : Request) → Cache → request.Result × Cache
  | .columns table, cache => (cache.columns.lookup table, cache)
  | .keepColumns table columns, cache =>
    ((), { cache with columns := Store.Memory.putEntry table columns cache.columns })
  | .asset owner id, cache => ((cache.assetsOf owner).lookup id, cache)
  | .keepAsset owner id asset, cache =>
    ((), cache.withAssets (Store.Memory.putEntry id asset (cache.assetsOf owner)) owner)
  | .token contract, cache => (cache.tokens.contains contract, cache)
  | .keepToken contract, cache => ((), { cache with tokens := contract :: cache.tokens })

/-- The reply of a memory that keeps nothing. -/
def forget : (request : Request) → request.Result
  | .columns _ => none
  | .keepColumns _ _ => ()
  | .asset _ _ => none
  | .keepAsset _ _ _ => ()
  | .token _ => false
  | .keepToken _ => ()

end Cache

end ChainIndex.Scan
