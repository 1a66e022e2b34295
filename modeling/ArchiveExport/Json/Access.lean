import ArchiveExport.Data.OrderedMap
import ArchiveExport.Json.Value

/-!
# Parts of JSON objects

The parts of an object by their names, each as a value of the kind that is asked for, and objects
with the members of another one put in.
-/

namespace ArchiveExport.Json

/-- The member under a name, or null. -/
def member (json : Json) (name : String) : Json :=
  (json.member? name).getD .null

/-- The text under a name. -/
def textAt? (json : Json) (name : String) : Option String :=
  (json.member? name).bind text?

/-- The integer under a name. -/
def integerAt? (json : Json) (name : String) : Option Int :=
  (json.member? name).bind integer?

/-- The natural number under a name; negative integers count as zero. -/
def countAt? (json : Json) (name : String) : Option Nat :=
  (json.integerAt? name).map Int.toNat

/-- The truth value under a name. -/
def flagAt? (json : Json) (name : String) : Option Bool :=
  (json.member? name).bind bool?

/-- The items of the array under a name. -/
def itemsAt (json : Json) (name : String) : List Json :=
  (json.member name).items

/-- The text of a value, empty for other values. -/
def textOrEmpty (json : Json) : String :=
  json.text?.getD ""

/-- The text under a name, empty where there is none. -/
def textAt (json : Json) (name : String) : String :=
  (json.member name).textOrEmpty

/-- The texts of an array. -/
def texts (json : Json) : List String :=
  json.items.map textOrEmpty

/-- The texts of the array under a name. -/
def textsAt (json : Json) (name : String) : List String :=
  (json.member name).texts

/-- The object with more members, in place of those of the same names. -/
def merge (json : Json) (members : List (String × Json)) : Json :=
  .object ((⟨json.members⟩ : OrderedMap String Json).insertAll members).entries

end ArchiveExport.Json
