/-
The value that an outline stands for, whatever format it is written in.
-/
import Listing.Json.Basic
import Listing.Outline

namespace Listing

/-- What a reader is to find for a scalar.  A number that is not finite becomes nothing. -/
def Scalar.value : Scalar → Json
  | .text t => .text t
  | .number x => if x.isFinite then .real x else .null
  | .flag b => .bool b

namespace Outline

def fields (entries : List (Text × Scalar)) : List (Text × Json) :=
  entries.map fun e => (e.1, e.2.value)

/-- The fields of an outline: its entries, and an object for each group. -/
def topFields (o : Outline) : List (Text × Json) :=
  fields o.entries ++ o.groups.map fun g => (g.1, Json.ofFields (fields g.2))

def value (o : Outline) : Json := Json.ofFields o.topFields

/-- What all entries of an outline hold. -/
def scalars (o : Outline) : List Scalar :=
  o.entries.map Prod.snd ++ o.groups.flatMap fun g => g.2.map Prod.snd

@[simp] theorem fields_append (a b : List (Text × Scalar)) :
    fields (a ++ b) = fields a ++ fields b :=
  List.map_append

@[simp] theorem map_fst_fields (entries : List (Text × Scalar)) :
    (fields entries).map Prod.fst = entries.map Prod.fst := by
  rw [fields, List.map_map]
  rfl

end Outline
end Listing
