/-
JSON values.

An object holds its fields in increasing order of their names, each name once, so
the order in which a text gives them is of no account.
-/
import Listing.Dict
import Listing.Number.Decimal

namespace Listing

/-- A JSON value. -/
inductive Json where
  | null
  | bool (b : Bool)
  /-- A whole number of 64 bits. -/
  | integer (n : Int)
  | real (x : Binary64)
  | text (t : Text)
  | array (items : List Json)
  | object (fields : List (Text × Json))

namespace Json

def text? : Json → Option Text
  | .text t => some t
  | _ => none

def fields? : Json → Option (List (Text × Json))
  | .object fields => some fields
  | _ => none

def isObject (v : Json) : Bool := v.fields?.isSome

/-- The number a value stands for. -/
def number? : Json → Option Binary64
  | .integer n => some (Binary64.ofInt n)
  | .real x => some x
  | _ => none

/-- The object with these fields; of several with one name the last counts. -/
def ofFields (fields : List (Text × Json)) : Json := .object (Dict.ofList fields).entries

end Json
end Listing
