import IconCatalog.Json.Token
/-!
Values of JSON, built from tokens one at a time. The builder keeps the arrays and objects that are
still open, the innermost first.
-/
namespace IconCatalog.Json

inductive Value where
  | null
  | bool (b : Bool)
  | number (lexeme : Text)
  | string (pieces : List Piece)
  | array (items : List Value)
  | object (members : List (List Piece × Value))

/-- An open array or object with what it holds so far, the latest first. -/
inductive Frame where
  | array (items : List Value)
  | object (members : List (List Piece × Value))
  | member (members : List (List Piece × Value)) (key : List Piece)

inductive Position where
  | value
  | firstItem
  | firstKey
  | key
  | colon
  | behind

inductive Builder where
  | inside (frames : List Frame) (position : Position)
  | complete (v : Value)

namespace Builder

def deliver : List Frame → Value → Option Builder
  | [], v => some (complete v)
  | .array items :: fs, v => some (inside (.array (v :: items) :: fs) .behind)
  | .member members key :: fs, v => some (inside (.object ((key, v) :: members) :: fs) .behind)
  | .object _ :: _, _ => none

def openValue (fs : List Frame) : Token → Option Builder
  | .null => deliver fs .null
  | .bool b => deliver fs (.bool b)
  | .number n => deliver fs (.number n)
  | .string ps => deliver fs (.string ps)
  | .openArray => some (inside (.array [] :: fs) .firstItem)
  | .openObject => some (inside (.object [] :: fs) .firstKey)
  | _ => none

def step : Builder → Token → Option Builder
  | complete _, _ => none
  | inside fs .value, k => openValue fs k
  | inside (.array _ :: fs) .firstItem, .closeArray => deliver fs (.array [])
  | inside fs .firstItem, k => openValue fs k
  | inside (.object _ :: fs) .firstKey, .closeObject => deliver fs (.object [])
  | inside (.object ms :: fs) .firstKey, .string key => some (inside (.member ms key :: fs) .colon)
  | inside (.object ms :: fs) .key, .string key => some (inside (.member ms key :: fs) .colon)
  | inside fs .colon, .colon => some (inside fs .value)
  | inside (.array items :: fs) .behind, .comma => some (inside (.array items :: fs) .value)
  | inside (.array items :: fs) .behind, .closeArray => deliver fs (.array items.reverse)
  | inside (.object ms :: fs) .behind, .comma => some (inside (.object ms :: fs) .key)
  | inside (.object ms :: fs) .behind, .closeObject => deliver fs (.object ms.reverse)
  | _, _ => none

end Builder

def Value.ofTokens? (ks : List Token) : Option Value :=
  match ks.foldlM Builder.step (.inside [] .value) with
  | some (.complete v) => some v
  | _ => none

def Value.read? (t : Text) : Option Value := (tokens? t).bind Value.ofTokens?

end IconCatalog.Json
