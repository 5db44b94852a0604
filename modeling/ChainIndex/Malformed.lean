import ChainIndex.Json.Text
import ChainIndex.Text.Quoted

/-!
# Malformed data

The ways in which data from the node or the store can fail to make sense, and their wording.
-/

namespace ChainIndex

/-- A number that has to fit a column. -/
inductive Quantity where
  | blockNumber
  | blockFee
  | transactionCount
  | referenceBlock
  | referencePrefix
  | operationCount
  | transactionIndex
  | operationIndex
  | operationType
  | receiptBlock
  | receiptOperation
  | receiptFee
  | eventBlock
  | eventOperation
deriving DecidableEq, Repr

/-- What messages call a quantity. -/
def Quantity.name : Quantity → String
  | .blockNumber => "block number"
  | .blockFee => "block fee"
  | .transactionCount => "transaction count"
  | .referenceBlock => "ref block number"
  | .referencePrefix => "ref block prefix"
  | .operationCount => "operation count"
  | .transactionIndex => "transaction index"
  | .operationIndex => "operation index"
  | .operationType => "operation type"
  | .receiptBlock => "receipt block"
  | .receiptOperation => "receipt op_num"
  | .receiptFee => "receipt fee"
  | .eventBlock => "event block"
  | .eventOperation => "event op_num"

/-- What is wrong with a field of a contract registration. -/
inductive RegistrationFault where
  | missing
  | notInteger
  | notTexts
deriving DecidableEq, Repr

/-- A property that a transfer must have. -/
inductive TransferPart where
  | sender
  | receiver
  | asset
deriving DecidableEq, Repr

/-- Data that cannot be decoded. -/
inductive Malformed where
  | outOfRange (what : Quantity) (value : Int)
  | notPair (raw : Json)
  | pairSize (size : Nat)
  | operationCode (raw : Json)
  | payload (code : Int)
  | contractInteger (raw : String)
  | balanceAmount (amount : Json) (asset : String)
  | transferArgument (arg : String)
  | transferAmount (amount : Json)
  | transferPart (part : TransferPart)
  | blockTime (text : String)
  | registration (field : String) (fault : RegistrationFault)
  | checkpoint (key value : String)
  | unknownAsset (asset : String)
  | assetPrecision (asset : String) (precision : Nat)
  | tokenPrecision (precision : Int) (contract : String)
  | blockReply (number : Nat)
  | receiptsReply (transaction : String)
  | reply (method : String)
  /-- A fault that a collaborator reports in its own words. -/
  | reported (detail : String)
deriving Repr

/-- Where a message would go on with the wording of a general-purpose reader, it stops at this
mark. -/
def elided : String := "<detail>"

/-- The wording of a fault. -/
def Malformed.message : Malformed → String
  | .outOfRange what value => what.name ++ " " ++ toString value ++ " out of range"
  | .notPair raw => "operation is not a pair: " ++ raw.text
  | .pairSize size => "invalid operation pair size (require 2 and got " ++ toString size ++ ")"
  | .operationCode raw => "invalid operation type " ++ raw.text
  | .payload code => "invalid operation payload for type " ++ toString code
  | .contractInteger raw => "expected integer contract result, got " ++ Text.quoted raw
  | .balanceAmount amount asset =>
    "invalid balance amount " ++ amount.text ++ " for asset " ++ asset
  | .transferArgument arg =>
    "invalid Transfer event arg " ++ Text.quoted arg ++ ": " ++ elided
  | .transferAmount amount => "invalid Transfer amount " ++ amount.text
  | .transferPart .sender => "invalid from_addr in transfer op"
  | .transferPart .receiver => "invalid to_addr in transfer op"
  | .transferPart .asset => "invalid amount type in transfer op"
  | .blockTime text => "block timestamp " ++ Text.quoted text ++ ": " ++ elided
  | .registration field .missing => "contract registration: " ++ field ++ " not found"
  | .registration field .notInteger => "contract registration: " ++ field ++ " is not an integer"
  | .registration field .notTexts =>
    "contract registration: " ++ field ++ " is not a list of strings"
  | .checkpoint key value => "invalid " ++ key ++ " value " ++ Text.quoted value
  | .unknownAsset asset => "unknown asset id " ++ asset
  | .assetPrecision asset precision =>
    "asset " ++ asset ++ " precision " ++ toString precision ++ " out of range"
  | .tokenPrecision precision contract =>
    "invalid precision " ++ toString precision ++ " of " ++ contract
  | .blockReply number => "block #" ++ toString number ++ ": " ++ elided
  | .receiptsReply transaction => "receipts of " ++ transaction ++ ": " ++ elided
  | .reply method => method ++ " reply: " ++ elided
  | .reported detail => detail

end ChainIndex
