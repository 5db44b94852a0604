import ChainIndex.Malformed

/-!
# Errors

Why a call, or a whole run, can fail. A failure of the store leaves the derived tables out of step
with the chain, so whoever tolerates errors passes these on.
-/

namespace ChainIndex

/-- A failure, by the collaborator that caused it. -/
inductive Error where
  /-- The node, or the connection to it. -/
  | node (detail : String)
  /-- The store. -/
  | store (detail : String)
  /-- Data that cannot be decoded. -/
  | malformed (fault : Malformed)
  /-- The settings. -/
  | settings (detail : String)
  /-- Anything else. -/
  | other (detail : String)
deriving Repr

namespace Error

/-- The text that is shown for an error. -/
def message : Error → String
  | .node detail => "RPC error: " ++ detail
  | .store detail => "Database error: " ++ detail
  | .malformed fault => "Decode error: " ++ fault.message
  | .settings detail => "Configuration error: " ++ detail
  | .other detail => detail

/-- Whether the store failed. -/
def isStoreFailure : Error → Bool
  | .store _ => true
  | _ => false

/-- Whether the node failed, or the connection to it. -/
def isNodeFailure : Error → Bool
  | .node _ => true
  | _ => false

end Error

end ChainIndex
