import Tabular.Keyed
import Tabular.Decimal.Binary

/-!
# JSON values

The members of an object are sorted by name, and every name stands once.
-/

namespace Tabular

/-- A JSON value. Whole numbers keep all their digits when they fit into 64 bits, with or without a
sign; every other number is a finite float. -/
inductive Json where
  | null
  | bool (b : Bool)
  | int (n : Int)
  | float (x : Float)
  | string (s : String)
  | array (items : List Json)
  | object (members : List (String × Json))
  deriving BEq, Repr, Inhabited

namespace Json

/-- An object of the given members; of several with one name the last one stays. -/
def ofMembers (members : List (String × Json)) : Json :=
  object (Keyed.sorted members)

def isObject : Json → Bool
  | object _ => true
  | _ => false

def isSimple : Json → Bool
  | array _ | object _ => false
  | _ => true

/-- A float as a value; what is not a finite number is `null`. -/
def ofFloat (x : Float) : Json :=
  if x.isFinite then float x else null

/-- The elements of a list; anything else is its own single element. -/
def items : Json → List Json
  | array items => items
  | value => [value]

end Json

end Tabular
