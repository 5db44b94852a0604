import ChainIndex.Json.Token

/-!
# The text of a JSON value

The compact text: no blanks between tokens, members in the order they are held.
-/

namespace ChainIndex.Json

mutual

/-- The tokens that write a value. -/
def toTokens : Json → List Token
  | .null => [.null]
  | .bool b => [.bool b]
  | .int n => [.int n]
  | .float x => [.float x]
  | .str s => [.text (some s)]
  | .arr items => .openList :: itemTokens items
  | .obj members => .openObject :: memberTokens members

/-- The tokens of the items of an array, up to its closing bracket. -/
def itemTokens : List Json → List Token
  | [] => [.closeList]
  | v :: vs => toTokens v ++ moreItemTokens vs

/-- The tokens of the items after the first, up to the closing bracket. -/
def moreItemTokens : List Json → List Token
  | [] => [.closeList]
  | v :: vs => .comma :: (toTokens v ++ moreItemTokens vs)

/-- The tokens of the members of an object, up to its closing bracket. -/
def memberTokens : List (String × Json) → List Token
  | [] => [.closeObject]
  | (name, v) :: rest => .text (some name) :: .colon :: (toTokens v ++ moreMemberTokens rest)

/-- The tokens of the members after the first, up to the closing bracket. -/
def moreMemberTokens : List (String × Json) → List Token
  | [] => [.closeObject]
  | (name, v) :: rest =>
    .comma :: .text (some name) :: .colon :: (toTokens v ++ moreMemberTokens rest)

end

/-- The compact text of a value. -/
def text (v : Json) : String :=
  String.ofList (v.toTokens.flatMap Token.chars)

end ChainIndex.Json
